import PxM1ur.Chrdev.Lifecycle

/-! What a session can rely on. A successful `m1ur_chrdev_open` leaves the rail commanded on
(GPIO 3 driven low, then GPIO 2 high) and the four chips initialised; the operations inside a
session drive no GPIO line and neither init nor term a chip, and the term leaves both to the
release. When the chrdev layer accepts an open only while no session is open, the open session
sees the rail on and every chip initialised from its open to its release. A second open that
fails inside `m1ur_backend_init` commands the rail off under the first session. -/

namespace PxM1ur

/-- The rail is commanded on: GPIO 3 was last driven low and GPIO 2 high. -/
structure RailOn (log : List Access) : Prop where
  gpio3Low : lastGpio log 3 = some false
  gpio2High : lastGpio log 2 = some true

structure Powered (log : List Access) extends RailOn log : Prop where
  chipsLive : ∀ chip, chipLive log chip = true

theorem chipCommand_eq_none {c : Call} (quiet : c.chipPower = false) (chip : Chip) :
    chipCommand chip c = none := by
  cases c <;> first | rfl | cases quiet

theorem gpioCommand_of_all {calls : List Call} (all : calls.all (fun c => !c.gpio) = true)
    (line : Nat) : ∀ c ∈ calls, gpioCommand line c = none :=
  fun c mem => gpioCommand_eq_none (by simpa using List.all_eq_true.mp all c mem) line

theorem chipCommand_of_all {calls : List Call} (all : calls.all (fun c => !c.chipPower) = true)
    (chip : Chip) : ∀ c ∈ calls, chipCommand chip c = none :=
  fun c mem => chipCommand_eq_none (by simpa using List.all_eq_true.mp all c mem) chip

theorem Powered.of_extends {hw hw' : Hw} (powered : Powered hw.log)
    (ext : hw.Extends (fun c => c.gpio = false ∧ c.chipPower = false) hw') : Powered hw'.log :=
  have gpio := fun line => lastGpio_of_extends (ext.mono fun _ c => c.1) line
  have chip := fun chip => ext.findSome?_log fun a quiet => chipCommand_eq_none quiet.2 chip
  ⟨⟨(gpio 3).trans powered.gpio3Low, (gpio 2).trans powered.gpio2High⟩,
    fun c => by rw [chipLive, chip c]; exact powered.chipsLive c⟩

theorem railOn_powerOn {available : Bool} {hw : Hw}
    (ok : (m1urBackendSetPower available true hw).1 = 0) :
    RailOn (m1urBackendSetPower available true hw).2.log := by
  simp only [m1urBackendSetPower, Bool.not_true, Bool.false_and, Bool.false_eq_true,
    ↓reduceIte] at ok ⊢
  split_ifs at ok ⊢ with low rail
  · exact absurd ok low
  · exact absurd ok rail
  · constructor <;> simp [gpioCommand]

theorem chipLive_backendInit_of_ok {hw : Hw} (ok : (m1urBackendInit hw).1 = 0) (chip : Chip) :
    chipLive (m1urBackendInit hw).2.log chip = true := by
  obtain ⟨new, log, -, issued, -, done⟩ :=
    runChecked_spec [.init .tc90522T, .init .tc90522S, .init .r850, .init .rt710] hw
  have first : ([Call.init .tc90522T, .init .tc90522S, .init .r850, .init .rt710].reverse.findSome?
      (chipCommand chip)) = some true := by
    cases chip <;> rfl
  rw [m1urBackendInit] at ok ⊢
  rw [chipLive_eq, log, List.map_append, map_call_of_issued issued (done ok).1,
    List.findSome?_append, first]
  rfl

theorem open_of_ok {dev : M1urDevice} (ok : (m1urChrdevOpen dev).1 = 0) :
    (m1urBackendSetPower dev.available true dev.hw).1 = 0 ∧
      (m1urBackendInit (m1urBackendSetPower dev.available true dev.hw).2).1 = 0 ∧
      (m1urChrdevOpen dev).2.hw = (runChecked openLater
        ((m1urBackendInit (m1urBackendSetPower dev.available true dev.hw).2).2.issue
          (.writeMultipleRegs .tc90522T tcInitT)).2).2 := by
  simp only [m1urChrdevOpen] at ok ⊢
  generalize m1urBackendSetPower dev.available true dev.hw = power at ok ⊢
  generalize m1urBackendInit power.2 = init at ok ⊢
  generalize init.2.issue (.writeMultipleRegs .tc90522T tcInitT) = regs at ok ⊢
  generalize runChecked openLater regs.2 = later at ok ⊢
  by_cases power.1 = 0 <;> by_cases init.1 = 0 <;> by_cases regs.1.ret = 0 <;>
    by_cases later.1 = 0 <;> simp_all

theorem open_powered {dev : M1urDevice} (ok : (m1urChrdevOpen dev).1 = 0) :
    Powered (m1urChrdevOpen dev).2.hw.log := by
  obtain ⟨power, init, hw⟩ := open_of_ok ok
  have gpio : ∀ line, lastGpio (m1urChrdevOpen dev).2.hw.log line =
      lastGpio (m1urBackendSetPower dev.available true dev.hw).2.log line := fun line => by
    rw [hw, lastGpio_runChecked (gpioCommand_of_all (by rfl) line), Hw.issue_log, lastGpio_cons,
      m1urBackendInit, lastGpio_runChecked (gpioCommand_of_all (by rfl) line)]
    rfl
  have rail := railOn_powerOn power
  refine ⟨⟨(gpio 3).trans rail.gpio3Low, (gpio 2).trans rail.gpio2High⟩, fun chip => ?_⟩
  rw [hw, chipLive_runChecked (chipCommand_of_all (by rfl) chip), Hw.issue_log, chipLive_cons]
  exact chipLive_backendInit_of_ok init chip

/-- At most one session is open, and while it is the rail is on and every chip initialised. -/
def SessionPowered (s : LifeState) : Prop :=
  s.sessions ≤ 1 ∧ (s.sessions = 1 → Powered s.owner.dev.hw.log)

section Exclusive

variable {ops : SessionOp → Prop}

theorem sessionPowered_of_step {s s' : LifeState} (powered : SessionPowered s)
    (step : LifeStep ops (· = 0) s s') : SessionPowered s' := by
  cases step with
  | openOk none ok =>
    subst none
    exact ⟨le_rfl, fun _ => open_powered ok⟩
  | openFail none _ =>
    subst none
    exact ⟨Nat.zero_le _, nofun⟩
  | step op _ =>
    exact ⟨powered.1, fun one => (powered.2 one).of_extends
      ((extends_sessionStep _ op).mono fun _ c => c.2)⟩
  | @release n _ _ =>
    have atMostOne : n + 1 ≤ 1 := powered.1
    exact ⟨show n ≤ 1 by omega,
      fun one => absurd atMostOne (by rw [show n = 1 from one]; omega)⟩
  | @term n o =>
    exact ⟨powered.1, fun one => (powered.2 one).of_extends
      (@extends_releaseIfLast (fun c => c.gpio = false ∧ c.chipPower = false) ⟨rfl, rfl⟩
        ⟨rfl, rfl⟩ ⟨{ o.dev with available := false, kref := o.dev.kref - 1 },
          .groupDestroy :: o.kernel⟩)⟩

theorem sessionPowered_of_reach {discardNullPackets : Bool} {hw : Hw} {s : LifeState}
    (run : Relation.ReflTransGen (LifeStep ops (· = 0)) (attach discardNullPackets hw) s) :
    SessionPowered s := by
  induction run with
  | refl => exact ⟨Nat.zero_le _, nofun⟩
  | tail _ step ih => exact sessionPowered_of_step ih step

/-- Over every life of the device in which the chrdev layer accepts an open only while no session
is open, whatever it runs inside the session and under every pattern of hardware replies: at most
one session is open, and while one is, from its open to its release and across the term, the
rail is commanded on and every chip is initialised. -/
theorem life_session_powered {discardNullPackets : Bool} {hw : Hw} {s : LifeState}
    (run : Relation.ReflTransGen (LifeStep ops (· = 0)) (attach discardNullPackets hw) s)
    (opened : s.sessions ≠ 0) :
    s.sessions = 1 ∧ RailOn s.owner.dev.hw.log ∧
      ∀ chip, chipLive s.owner.dev.hw.log chip = true :=
  have ⟨atMostOne, powered⟩ := sessionPowered_of_reach run
  have one : s.sessions = 1 := by omega
  ⟨one, (powered one).toRailOn, (powered one).chipsLive⟩

end Exclusive

theorem life_session_powered_after_open :
    ∃ s, Relation.ReflTransGen (LifeStep (fun _ => True) (· = 0))
        (attach false ⟨fun _ _ => ⟨0, false, 0⟩, []⟩) s ∧ s.sessions ≠ 0 ∧
      s.sessions = 1 ∧ RailOn s.owner.dev.hw.log ∧
      ∀ chip, chipLive s.owner.dev.hw.log chip = true := by
  have opened :
      (m1urChrdevOpen (attach false ⟨fun _ _ => ⟨0, false, 0⟩, []⟩).owner.dev).1 = 0 := by
    decide
  have run : Relation.ReflTransGen (LifeStep (fun _ => True) (· = 0)) _ _ :=
    Relation.ReflTransGen.single (LifeStep.openOk (n := 0) rfl opened)
  exact ⟨_, run, Nat.one_ne_zero, life_session_powered run Nat.one_ne_zero⟩

example : ∃ s, Relation.ReflTransGen (LifeStep (fun _ => True) (fun _ => True))
      (attach false ⟨fun n c => if c = .init .tc90522T ∧ 20 < n then ⟨-5, false, 0⟩
        else ⟨0, false, 0⟩, []⟩) s ∧
    s.sessions = 1 ∧ lastGpio s.owner.dev.hw.log 2 = some false := by
  have first : (m1urChrdevOpen (attach false ⟨fun n c => if c = .init .tc90522T ∧ 20 < n then
      ⟨-5, false, 0⟩ else ⟨0, false, 0⟩, []⟩).owner.dev).1 = 0 := by
    decide
  have run : Relation.ReflTransGen (LifeStep (fun _ => True) (fun _ => True)) _ _ :=
    (Relation.ReflTransGen.single (LifeStep.openOk (n := 0) trivial first)).tail
      (LifeStep.openFail trivial (by decide))
  exact ⟨_, run, rfl, by decide⟩

end PxM1ur
