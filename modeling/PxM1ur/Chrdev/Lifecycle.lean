import PxM1ur.Chrdev.Footprint
import Mathlib.Logic.Relation

/-! The life of a PX-M1UR from `m1ur_device_init` to `m1ur_device_release`: sessions opened and
released by the chrdev layer, the operations run inside them, and `m1ur_device_term` when the
device goes away, in any order the chrdev layer allows (opens only until the term destroys the
chrdev group; operations and releases of open sessions also after it). `kref` holds one reference
for the owner and one per open session, and the release callback runs from the `kref_put` that
drops the last. The bridge and the bus are read off the access log like the chips: up after an
init that returned 0, down after a failed init or a term. -/

namespace PxM1ur

/-- The kernel calls of the teardown that are not accesses to the hardware. -/
inductive KernelCall where
  | groupDestroy
  | kfreeStreamCtx
  | putDevice
  | complete
  deriving DecidableEq, Repr

/-- The device with the kernel calls made for it since the attach, most recent first. -/
structure M1urOwner where
  dev : M1urDevice
  kernel : List KernelCall

/-- `m1ur_device_release`: `it930x_term`, `itedtv_bus_term`, `kfree(stream_ctx)`,
`put_device` and `complete(quit_completion)`. -/
def m1urDeviceRelease (o : M1urOwner) : M1urOwner :=
  ⟨{ o.dev with hw := o.dev.hw.issueAll [.bridgeTerm, .busTerm] },
    [.complete, .putDevice, .kfreeStreamCtx] ++ o.kernel⟩

/-- The end of `kref_put(&m1ur->kref, m1ur_device_release)`, after its decrement: the callback
runs when the count reached 0. -/
def releaseIfLast (o : M1urOwner) : M1urOwner :=
  if o.dev.kref = 0 then m1urDeviceRelease o else o

/-- `m1ur_chrdev_release` with the callback of its `kref_put`; `m1urChrdevRelease` is the call up
to the decrement. -/
def chrdevReleaseOwner (o : M1urOwner) : M1urOwner :=
  releaseIfLast ⟨(m1urChrdevRelease o.dev).2, o.kernel⟩

/-- `m1ur_device_term`: `available` cleared, the chrdev group destroyed, the owner's reference
put. -/
def m1urDeviceTerm (o : M1urOwner) : M1urOwner :=
  releaseIfLast ⟨{ o.dev with available := false, kref := o.dev.kref - 1 },
    .groupDestroy :: o.kernel⟩

theorem extends_releaseIfLast {allowed : Call → Prop} (bridge : allowed .bridgeTerm)
    (bus : allowed .busTerm) (o : M1urOwner) : o.dev.hw.Extends allowed (releaseIfLast o).dev.hw :=
  .ite (fun o : M1urOwner => o.dev.hw) (Hw.extends_issueAll (by simp [bridge, bus]) _) (.refl _)

def unitCommand (init term : Call) (a : Access) : Option Bool :=
  if a.call = init then some (a.reply.ret == 0) else if a.call = term then some false else none

def unitUp (init term : Call) (log : List Access) : Bool :=
  (log.findSome? (unitCommand init term)).getD false

def bridgeUp (log : List Access) : Bool := unitUp .bridgeInit .bridgeTerm log

def busUp (log : List Access) : Bool := unitUp .busInit .busTerm log

@[simp] theorem unitUp_cons (init term : Call) (a : Access) (log : List Access) :
    unitUp init term (a :: log) = (unitCommand init term a).getD (unitUp init term log) := by
  simp only [unitUp, List.findSome?_cons]
  cases unitCommand init term a <;> rfl

theorem unitUp_of_extends (init term : Call) (quiet : init.bridgeOrBus = true ∧
    term.bridgeOrBus = true) {hw hw' : Hw} (ext : hw.Extends NoBridgeOrBus hw') :
    unitUp init term hw'.log = unitUp init term hw.log := by
  rw [unitUp, unitUp, ext.findSome?_log fun a other => ?_]
  have differs : ∀ c : Call, c.bridgeOrBus = true → a.call ≠ c := fun c unit same => by
    rw [← same] at unit
    exact Bool.false_ne_true (other.symm.trans unit)
  simp [unitCommand, differs init quiet.1, differs term quiet.2]

theorem bridgeUp_of_extends {hw hw' : Hw} (ext : hw.Extends NoBridgeOrBus hw') :
    bridgeUp hw'.log = bridgeUp hw.log :=
  unitUp_of_extends .bridgeInit .bridgeTerm ⟨rfl, rfl⟩ ext

theorem busUp_of_extends {hw hw' : Hw} (ext : hw.Extends NoBridgeOrBus hw') :
    busUp hw'.log = busUp hw.log :=
  unitUp_of_extends .busInit .busTerm ⟨rfl, rfl⟩ ext

theorem runChecked_single (call : Call) (hw : Hw) :
    runChecked [call] hw = ((hw.issue call).1.ret, (hw.issue call).2) := by
  rw [runChecked]
  split
  · rfl
  · next ok => rw [not_not.mp ok]; rfl

theorem deviceInitCalls_units (discardNullPackets : Bool) (hw : Hw) :
    bridgeUp (runChecked (deviceInitCalls discardNullPackets) hw).2.log = bridgeUp hw.log ∧
      busUp (runChecked (deviceInitCalls discardNullPackets) hw).2.log = busUp hw.log :=
  have ext : hw.Extends NoBridgeOrBus _ :=
    extends_runChecked (noBridgeOrBus_of_all (by cases discardNullPackets <;> rfl)) hw
  ⟨bridgeUp_of_extends ext, busUp_of_extends ext⟩

/-- A point in the life of the device: the sessions open, whether `m1ur_device_term` ran, and
the device with the kernel calls made for it. -/
structure LifeState where
  sessions : Nat
  detached : Bool
  owner : M1urOwner

/-- One call of the chrdev layer, or the term when the device goes away. `ops` says which
operations the chrdev layer may run inside a session, and `opens` with how many sessions open it
accepts another open. -/
inductive LifeStep (ops : SessionOp → Prop) (opens : Nat → Prop) :
    LifeState → LifeState → Prop where
  | openOk {n : Nat} {o : M1urOwner} : opens n → (m1urChrdevOpen o.dev).1 = 0 →
      LifeStep ops opens ⟨n, false, o⟩
        ⟨n + 1, false, ⟨(m1urChrdevOpen o.dev).2, o.kernel⟩⟩
  | openFail {n : Nat} {o : M1urOwner} : opens n → (m1urChrdevOpen o.dev).1 ≠ 0 →
      LifeStep ops opens ⟨n, false, o⟩ ⟨n, false, ⟨(m1urChrdevOpen o.dev).2, o.kernel⟩⟩
  | step {n : Nat} {detached : Bool} {o : M1urOwner} (op : SessionOp) : ops op →
      LifeStep ops opens ⟨n + 1, detached, o⟩
        ⟨n + 1, detached, ⟨(sessionStep o.dev op).2, o.kernel⟩⟩
  | release {n : Nat} {detached : Bool} {o : M1urOwner} :
      LifeStep ops opens ⟨n + 1, detached, o⟩ ⟨n, detached, chrdevReleaseOwner o⟩
  | term {n : Nat} {o : M1urOwner} :
      LifeStep ops opens ⟨n, false, o⟩ ⟨n, true, m1urDeviceTerm o⟩

def attach (discardNullPackets : Bool) (hw : Hw) : LifeState :=
  ⟨0, false, ⟨(m1urDeviceInit discardNullPackets hw).2, []⟩⟩

def LifeState.ended (s : LifeState) : Bool := s.detached && s.sessions == 0

@[simp] theorem LifeState.ended_mk (n : Nat) (detached : Bool) (o : M1urOwner) :
    (LifeState.mk n detached o).ended = (detached && n == 0) := rfl

def teardown : List KernelCall := [.complete, .putDevice, .kfreeStreamCtx, .groupDestroy]

/-- What holds at every point of the life: one reference for the owner until the term and one
per open session; the device available until the term; the group destroyed at the term and the
release callback run once, when the last reference went; the bridge and the bus up until then
and down after. -/
structure LifeInv (s : LifeState) : Prop where
  kref : s.owner.dev.kref = s.sessions + if s.detached then 0 else 1
  available : s.owner.dev.available = !s.detached
  kernel : s.owner.kernel = if s.ended then teardown else if s.detached then [.groupDestroy] else []
  bridge : bridgeUp s.owner.dev.hw.log = !s.ended
  bus : busUp s.owner.dev.hw.log = !s.ended

section Release

variable (o : M1urOwner)

@[simp] theorem deviceRelease_kref : (m1urDeviceRelease o).dev.kref = o.dev.kref := rfl

@[simp] theorem deviceRelease_available :
    (m1urDeviceRelease o).dev.available = o.dev.available := rfl

@[simp] theorem deviceRelease_kernel :
    (m1urDeviceRelease o).kernel = [.complete, .putDevice, .kfreeStreamCtx] ++ o.kernel := rfl

@[simp] theorem deviceRelease_units : bridgeUp (m1urDeviceRelease o).dev.hw.log = false ∧
    busUp (m1urDeviceRelease o).dev.hw.log = false := by
  simp [m1urDeviceRelease, Hw.issueAll, bridgeUp, busUp, unitCommand]

end Release

theorem deviceInit_up {discardNullPackets : Bool} {hw : Hw}
    (ok : (m1urDeviceInit discardNullPackets hw).1 = 0) :
    bridgeUp (m1urDeviceInit discardNullPackets hw).2.hw.log = true ∧
      busUp (m1urDeviceInit discardNullPackets hw).2.hw.log = true := by
  have rest := deviceInitCalls_units discardNullPackets
  simp only [m1urDeviceInit, runChecked_single] at ok ⊢
  split_ifs at ok <;> simp_all [bridgeUp, busUp, unitCommand, enomem]

theorem lifeInv_attach {discardNullPackets : Bool} {hw : Hw}
    (ok : (m1urDeviceInit discardNullPackets hw).1 = 0) : LifeInv (attach discardNullPackets hw) :=
  have ⟨_, _, kref, available⟩ := deviceInit_attached ok
  have ⟨bridge, bus⟩ := deviceInit_up ok
  ⟨kref, available, rfl, bridge, bus⟩

section Steps

variable {n : Nat} {o : M1urOwner}

theorem lifeInv_open (inv : LifeInv ⟨n, false, o⟩) :
    LifeInv ⟨if (m1urChrdevOpen o.dev).1 = 0 then n + 1 else n, false,
      ⟨(m1urChrdevOpen o.dev).2, o.kernel⟩⟩ := by
  obtain ⟨kref, available, kernel, bridge, bus⟩ := inv
  have ext := (extends_open o.dev).mono fun _ call => call.1
  dsimp only at *
  refine ⟨?_, by rwa [open_available], ?_, ?_, ?_⟩
  · rw [open_kref, kref]
    split_ifs <;> rfl
  all_goals simp_all [bridgeUp_of_extends ext, busUp_of_extends ext]

theorem lifeInv_sessionStep {detached : Bool} (op : SessionOp)
    (inv : LifeInv ⟨n + 1, detached, o⟩) :
    LifeInv ⟨n + 1, detached, ⟨(sessionStep o.dev op).2, o.kernel⟩⟩ := by
  obtain ⟨kref, available, kernel, bridge, bus⟩ := inv
  have ext := (extends_sessionStep o.dev op).mono fun _ call => call.1
  dsimp only at *
  exact ⟨by rw [(sessionStep_kref _ op).1]; exact kref,
    by rw [(sessionStep_kref _ op).2]; exact available, by simpa using kernel,
    by simpa [bridgeUp_of_extends ext] using bridge, by simpa [busUp_of_extends ext] using bus⟩

theorem lifeInv_release {detached : Bool} (inv : LifeInv ⟨n + 1, detached, o⟩) :
    LifeInv ⟨n, detached, chrdevReleaseOwner o⟩ := by
  obtain ⟨kref, available, kernel, bridge, bus⟩ := inv
  have ext := (extends_release o.dev).mono fun _ call => call.1
  simp only [LifeState.ended_mk] at kref available kernel bridge bus
  have dropped : (m1urChrdevRelease o.dev).2.kref = n + if detached then 0 else 1 := by
    rw [release_kref, kref]
    split_ifs <;> rfl
  rw [chrdevReleaseOwner, releaseIfLast, dropped]
  by_cases last : detached = true ∧ n = 0
  · obtain ⟨rfl, rfl⟩ := last
    rw [if_pos rfl]
    refine ⟨?_, ?_, ?_, ?_, ?_⟩ <;> simp_all [teardown]
  · rw [if_neg (by cases detached <;> simp_all)]
    refine ⟨dropped, available, ?_, ?_, ?_⟩ <;>
      cases detached <;> simp_all [bridgeUp_of_extends ext, busUp_of_extends ext]

theorem lifeInv_term (inv : LifeInv ⟨n, false, o⟩) :
    LifeInv ⟨n, true, m1urDeviceTerm o⟩ := by
  obtain ⟨kref, available, kernel, bridge, bus⟩ := inv
  simp only [LifeState.ended_mk] at kref available kernel bridge bus
  rw [m1urDeviceTerm, releaseIfLast]
  by_cases last : n = 0
  · subst last
    rw [if_pos (by simp [kref])]
    refine ⟨?_, ?_, ?_, ?_, ?_⟩ <;> simp_all [teardown]
  · rw [if_neg (by simpa [kref] using last)]
    refine ⟨by simp [kref], rfl, ?_, ?_, ?_⟩ <;> simp_all

end Steps

section Runs

variable {ops : SessionOp → Prop} {opens : Nat → Prop}

theorem lifeInv_of_step {s s' : LifeState} (inv : LifeInv s) (step : LifeStep ops opens s s') :
    LifeInv s' := by
  cases step with
  | openOk _ ok => simpa [ok] using lifeInv_open inv
  | openFail _ fail => simpa [fail] using lifeInv_open inv
  | step op _ => exact lifeInv_sessionStep op inv
  | release => exact lifeInv_release inv
  | term => exact lifeInv_term inv

theorem lifeInv_of_run {s s' : LifeState} (inv : LifeInv s)
    (run : Relation.ReflTransGen (LifeStep ops opens) s s') : LifeInv s' := by
  induction run with
  | refl => exact inv
  | tail _ step ih => exact lifeInv_of_step ih step

/-- Over every life of the device, from a successful `m1ur_device_init` through any order of
opens, session operations, releases and the term the chrdev layer allows, under every pattern
of hardware replies, `LifeInv` holds: the count never drops below the open sessions, the release
callback has run exactly when the device is gone and no session holds it, and then once, and the
bridge and the bus stay up until it runs. -/
theorem lifeInv_reachable {discardNullPackets : Bool} {hw : Hw}
    (ok : (m1urDeviceInit discardNullPackets hw).1 = 0) {s : LifeState}
    (run : Relation.ReflTransGen (LifeStep ops opens) (attach discardNullPackets hw) s) :
    LifeInv s :=
  lifeInv_of_run (lifeInv_attach ok) run

end Runs

theorem lifeInv_reachable_unplugged_session :
    (m1urDeviceInit false ⟨fun _ _ => ⟨0, false, 0⟩, []⟩).1 = 0 ∧
      ∃ s, Relation.ReflTransGen (LifeStep (fun _ => True) (fun _ => True))
          (attach false ⟨fun _ _ => ⟨0, false, 0⟩, []⟩) s ∧
        s.ended = true ∧ LifeInv s := by
  have ok : (m1urDeviceInit false ⟨fun _ _ => ⟨0, false, 0⟩, []⟩).1 = 0 := by decide
  have opened :
      (m1urChrdevOpen (attach false ⟨fun _ _ => ⟨0, false, 0⟩, []⟩).owner.dev).1 = 0 := by
    decide
  have run : Relation.ReflTransGen (LifeStep (fun _ => True) (fun _ => True)) _ _ :=
    ((Relation.ReflTransGen.single (LifeStep.openOk (n := 0) trivial opened)).tail
      LifeStep.term).tail LifeStep.release
  exact ⟨ok, _, run, rfl, lifeInv_reachable ok run⟩

theorem gpioCommand_eq_none {c : Call} (quiet : c.gpio = false) (line : Nat) :
    gpioCommand line c = none := by
  cases c <;> first | rfl | cases quiet

theorem lastGpio_of_extends {hw hw' : Hw} (ext : hw.Extends (fun c => c.gpio = false) hw')
    (line : Nat) : lastGpio hw'.log line = lastGpio hw.log line :=
  ext.findSome?_log fun _ quiet => gpioCommand_eq_none quiet line

section Detach

variable {ops : SessionOp → Prop} {opens : Nat → Prop}

theorem lifeStep_after_detach {s s' : LifeState} (inv : LifeInv s) (gone : s.detached = true)
    (step : LifeStep ops opens s s') :
    s'.detached = true ∧ s.owner.dev.hw.Extends (fun c => c.gpio = false) s'.owner.dev.hw := by
  cases step with
  | openOk | openFail | term => exact absurd gone Bool.false_ne_true
  | step op _ => exact ⟨gone, (extends_sessionStep _ op).mono fun _ call => call.2.1⟩
  | @release n detached o =>
    obtain rfl : detached = true := gone
    have unavailable : o.dev.available = false := inv.available
    have ext := extends_release_of_unavailable unavailable
    exact ⟨rfl, ext.trans (@extends_releaseIfLast (fun c => c.gpio = false) rfl rfl _)⟩

end Detach

end PxM1ur
