import PxM1ur.Chrdev.Access
import PxM1ur.Stream.Handler

/-! Power and chip bring-up of the PX-M1UR: `m1ur_backend_set_power`, `m1ur_backend_init`,
`m1ur_backend_term`, and `m1ur_chrdev_open` / `m1ur_chrdev_release` built from them. What a
session leaves behind is read off the access log: the value last commanded on a GPIO line
(`lastGpio`) and whether the last `*_init` or `*_term` issued for a chip was an init
(`chipLive`). -/

namespace PxM1ur

/-- The part of `struct m1ur_device` the chrdev operations read and write. -/
structure M1urDevice where
  hw : Hw
  kref : Nat
  available : Bool
  streamCtx : M1urStreamContext

def m1urBackendSetPower (available state : Bool) (hw : Hw) : Int × Hw :=
  if !state && !available then (0, hw)
  else if state then
    let low := hw.issue (.writeGpio 3 false)
    if low.1.ret ≠ 0 then (low.1.ret, low.2)
    else
      let rail := (low.2.msleep 100).issue (.writeGpio 2 true)
      if rail.1.ret ≠ 0 then (rail.1.ret, rail.2) else (0, rail.2.msleep 20)
  else (0, hw.issueAll [.writeGpio 2 false, .writeGpio 3 true])

def m1urBackendInit (hw : Hw) : Int × Hw :=
  runChecked [.init .tc90522T, .init .tc90522S, .init .r850, .init .rt710] hw

def m1urBackendTerm (hw : Hw) : Hw :=
  hw.issueAll [.term .r850, .term .rt710, .term .tc90522T, .term .tc90522S]

def tcInitT : List (UInt8 × UInt8) :=
  [(0xb0, 0xa0), (0xb2, 0x3d), (0xb3, 0x25), (0xb4, 0x8b), (0xb5, 0x4b), (0xb6, 0x3f),
    (0xb7, 0xff), (0xb8, 0xc0)]

def tcInitS : List (UInt8 × UInt8) := [(0x15, 0x00), (0x1d, 0x00)]

/-- The steps of `m1ur_chrdev_open` after `tc_init_t`; each returns at once when it fails. -/
def openLater : List Call :=
  [.enableTsPins .tc90522T false, .sleep .tc90522T true, .r850SetSystem .isdbT .bw6M 4063,
    .writeMultipleRegs .tc90522S tcInitS, .enableTsPins .tc90522S false, .sleep .tc90522S true]

def m1urChrdevOpen (dev : M1urDevice) : Int × M1urDevice :=
  let power := m1urBackendSetPower dev.available true dev.hw
  if power.1 ≠ 0 then (power.1, { dev with hw := power.2 })
  else
    let init := m1urBackendInit power.2
    if init.1 ≠ 0 then
      (init.1, { dev with hw := (m1urBackendSetPower dev.available false init.2).2 })
    else
      let regs := init.2.issue (.writeMultipleRegs .tc90522T tcInitT)
      if regs.1.ret ≠ 0 then
        (regs.1.ret,
          { dev with hw := (m1urBackendSetPower dev.available false (m1urBackendTerm regs.2)).2 })
      else
        let later := runChecked openLater regs.2
        if later.1 ≠ 0 then (later.1, { dev with hw := later.2 })
        else (0, { dev with hw := later.2, kref := dev.kref + 1 })

def m1urChrdevRelease (dev : M1urDevice) : Int × M1urDevice :=
  let off := m1urBackendSetPower dev.available false (m1urBackendTerm dev.hw)
  (0, { dev with hw := off.2, kref := dev.kref - 1 })

/-- The accesses of `m1ur_device_init` after the bridge is up, each checked in turn; a failure
goes to `fail_device`. The setup of `m1ur_device_load_config` reads register 0x4979 and otherwise
only fills in configuration. -/
def deviceInitCalls (discardNullPackets : Bool) : List Call :=
  [.bridgeRaise, .readReg 0x4979, .loadFirmware, .initWarm, .setGpioMode 3, .writeGpio 3 true,
    .setGpioMode 2, .writeGpio 2 false] ++
  (if discardNullPackets then [.setPidFilter] else []) ++ [.addGroup]

/-- `m1ur_device_init` with its goto chain: `kref_init`, the stream context allocation, the bus,
the bridge, then `deviceInitCalls`; `available` is set only at the end. -/
def m1urDeviceInit (discardNullPackets : Bool) (hw : Hw) : Int × M1urDevice :=
  let device (hw : Hw) (available : Bool) : M1urDevice := ⟨hw, 1, available, .captureStart⟩
  if (hw.issue .allocStreamCtx).1.ret ≠ 0 then (-enomem, device (hw.issue .allocStreamCtx).2 false)
  else
    let bus := runChecked [.busInit] (hw.issue .allocStreamCtx).2
    if bus.1 ≠ 0 then (bus.1, device bus.2 false)
    else
      let bridge := runChecked [.bridgeInit] bus.2
      if bridge.1 ≠ 0 then (bridge.1, device (bridge.2.issue .busTerm).2 false)
      else
        let rest := runChecked (deviceInitCalls discardNullPackets) bridge.2
        if rest.1 ≠ 0 then
          (rest.1, device (rest.2.issueAll [.bridgeTerm, .busTerm]) false)
        else (0, device rest.2 true)

/-- The goto label (or the direct return) by which `m1ur_chrdev_open` left; an open that got past
`tc_init_t` is `afterTcInitT`, whether it then failed or not. -/
inductive OpenStage where
  | backendPower
  | backendInit
  | tcInitT
  | afterTcInitT
  deriving DecidableEq, Repr

def openStage (dev : M1urDevice) : OpenStage :=
  let power := m1urBackendSetPower dev.available true dev.hw
  if power.1 ≠ 0 then .backendPower
  else if (m1urBackendInit power.2).1 ≠ 0 then .backendInit
  else if ((m1urBackendInit power.2).2.issue (.writeMultipleRegs .tc90522T tcInitT)).1.ret ≠ 0 then
    .tcInitT
  else .afterTcInitT

def gpioCommand (line : Nat) : Call → Option Bool
  | .writeGpio l high => if l = line then some high else none
  | _ => none

def chipCommand (chip : Chip) : Call → Option Bool
  | .init c => if c = chip then some true else none
  | .term c => if c = chip then some false else none
  | _ => none

def lastGpio (log : List Access) (line : Nat) : Option Bool :=
  log.findSome? fun a => gpioCommand line a.call

def chipLive (log : List Access) (chip : Chip) : Bool :=
  (log.findSome? fun a => chipCommand chip a.call).getD false

/-- The rail is commanded off: GPIO 2 was last driven low and GPIO 3 high. -/
structure RailOff (log : List Access) : Prop where
  gpio2Low : lastGpio log 2 = some false
  gpio3High : lastGpio log 3 = some true

/-- Rail off, and every chip whose init was issued has since had its term issued. -/
structure Quiet (log : List Access) extends RailOff log : Prop where
  chipsTerm : ∀ chip, chipLive log chip = false

@[simp] theorem lastGpio_cons (a : Access) (log : List Access) (line : Nat) :
    lastGpio (a :: log) line = (gpioCommand line a.call).or (lastGpio log line) := by
  simp only [lastGpio, List.findSome?_cons]
  cases gpioCommand line a.call <;> rfl

@[simp] theorem chipLive_cons (a : Access) (log : List Access) (chip : Chip) :
    chipLive (a :: log) chip = ((chipCommand chip a.call).getD (chipLive log chip)) := by
  simp only [chipLive, List.findSome?_cons]
  cases chipCommand chip a.call <;> rfl

theorem chipLive_eq (log : List Access) (chip : Chip) :
    chipLive log chip = ((log.map Access.call).findSome? (chipCommand chip)).getD false := by
  rw [chipLive, List.findSome?_map]
  rfl

theorem lastGpio_eq (log : List Access) (line : Nat) :
    lastGpio log line = (log.map Access.call).findSome? (gpioCommand line) := by
  rw [lastGpio, List.findSome?_map]
  rfl

theorem lastGpio_runChecked {calls : List Call} {line : Nat}
    (quiet : ∀ c ∈ calls, gpioCommand line c = none) (hw : Hw) :
    lastGpio (runChecked calls hw).2.log line = lastGpio hw.log line := by
  induction calls generalizing hw with
  | nil => rfl
  | cons call calls ih =>
    have first := quiet call (List.mem_cons_self _ _)
    rw [runChecked]
    split
    · simp [first]
    · rw [ih (fun c mem => quiet c (List.mem_cons_of_mem _ mem))]
      simp [first]

theorem chipLive_runChecked {calls : List Call} {chip : Chip}
    (quiet : ∀ c ∈ calls, chipCommand chip c = none) (hw : Hw) :
    chipLive (runChecked calls hw).2.log chip = chipLive hw.log chip := by
  induction calls generalizing hw with
  | nil => rfl
  | cons call calls ih =>
    have first := quiet call (List.mem_cons_self _ _)
    rw [runChecked]
    split
    · simp [first]
    · rw [ih (fun c mem => quiet c (List.mem_cons_of_mem _ mem))]
      simp [first]

theorem railOff_powerOff (hw : Hw) : RailOff (m1urBackendSetPower true false hw).2.log := by
  constructor <;> simp [m1urBackendSetPower, Hw.issueAll, gpioCommand]

theorem chipLive_powerOff (available : Bool) (hw : Hw) (chip : Chip) :
    chipLive (m1urBackendSetPower available false hw).2.log chip = chipLive hw.log chip := by
  cases available <;> simp [m1urBackendSetPower, Hw.issueAll, chipCommand]

theorem chipLive_term (hw : Hw) (chip : Chip) : chipLive (m1urBackendTerm hw).log chip = false := by
  cases chip <;> simp [m1urBackendTerm, Hw.issueAll, chipCommand]

theorem quiet_powerOff_term (hw : Hw) :
    Quiet (m1urBackendSetPower true false (m1urBackendTerm hw)).2.log :=
  { railOff_powerOff _ with
    chipsTerm := fun chip => by rw [chipLive_powerOff, chipLive_term] }

theorem deviceInit_of_ok {discardNullPackets : Bool} {hw : Hw}
    (ok : (m1urDeviceInit discardNullPackets hw).1 = 0) :
    (runChecked (deviceInitCalls discardNullPackets)
      (runChecked [.bridgeInit] (runChecked [.busInit] (hw.issue .allocStreamCtx).2).2).2).1 = 0 ∧
    (m1urDeviceInit discardNullPackets hw).2 = ⟨(runChecked (deviceInitCalls discardNullPackets)
      (runChecked [.bridgeInit] (runChecked [.busInit] (hw.issue .allocStreamCtx).2).2).2).2, 1,
        true, .captureStart⟩ := by
  simp only [m1urDeviceInit] at ok ⊢
  generalize hw.issue .allocStreamCtx = alloc at ok ⊢
  generalize runChecked [.busInit] alloc.2 = bus at ok ⊢
  generalize runChecked [.bridgeInit] bus.2 = bridge at ok ⊢
  generalize runChecked (deviceInitCalls discardNullPackets) bridge.2 = rest at ok ⊢
  -- each step either returned 0 or its nonzero code is the result
  by_cases alloc.1.ret = 0 <;> by_cases bus.1 = 0 <;> by_cases bridge.1 = 0 <;>
    by_cases rest.1 = 0 <;> simp_all [enomem]

theorem deviceInit_attached {discardNullPackets : Bool} {hw : Hw}
    (ok : (m1urDeviceInit discardNullPackets hw).1 = 0) :
    RailOff (m1urDeviceInit discardNullPackets hw).2.hw.log ∧
      (∀ chip, chipLive (m1urDeviceInit discardNullPackets hw).2.hw.log chip =
        chipLive hw.log chip) ∧
      (m1urDeviceInit discardNullPackets hw).2.kref = 1 ∧
      (m1urDeviceInit discardNullPackets hw).2.available = true := by
  obtain ⟨rest, device⟩ := deviceInit_of_ok ok
  obtain ⟨new, log, -, issued, -, done⟩ := runChecked_spec (deviceInitCalls discardNullPackets)
    (runChecked [.bridgeInit] (runChecked [.busInit] (hw.issue .allocStreamCtx).2).2).2
  have calls : new.map Access.call = (deviceInitCalls discardNullPackets).reverse := by
    rw [← List.reverse_reverse (new.map _), issued, (done rest).1, List.take_length]
  rw [device]
  refine ⟨⟨?_, ?_⟩, fun chip => ?_, rfl, rfl⟩
  · rw [lastGpio_eq, log, List.map_append, calls]
    cases discardNullPackets <;> simp [deviceInitCalls, gpioCommand]
  · rw [lastGpio_eq, log, List.map_append, calls]
    cases discardNullPackets <;> simp [deviceInitCalls, gpioCommand]
  · have untouched : (deviceInitCalls discardNullPackets).reverse.findSome? (chipCommand chip) =
        none := by
      cases discardNullPackets <;> simp [deviceInitCalls, chipCommand]
    rw [chipLive_eq, log, List.map_append, calls, List.findSome?_append, untouched,
      Option.none_or, ← chipLive_eq, chipLive_runChecked (by simp [chipCommand]),
      chipLive_runChecked (by simp [chipCommand])]
    simp [chipCommand]

theorem powerOn_spec (available : Bool) (hw : Hw) :
    lastGpio (m1urBackendSetPower available true hw).2.log 3 = some false ∧
      ∀ chip, chipLive (m1urBackendSetPower available true hw).2.log chip =
        chipLive hw.log chip := by
  simp only [m1urBackendSetPower, Bool.not_true, Bool.false_and, Bool.false_eq_true, ↓reduceIte]
  split_ifs <;> simp [gpioCommand, chipCommand]

theorem chipLive_backendInit (hw : Hw) : chipLive (m1urBackendInit hw).2.log .tc90522T = true := by
  obtain ⟨new, log, -, issued, nonempty, -⟩ :=
    runChecked_spec [.init .tc90522T, .init .tc90522S, .init .r850, .init .rt710] hw
  have length := congrArg List.length issued
  have pos : 0 < new.length := List.length_pos.mpr (nonempty (List.cons_ne_nil _ _))
  rw [m1urBackendInit, chipLive_eq, log, List.map_append, ← List.reverse_reverse (new.map _),
    issued]
  simp only [List.length_reverse, List.length_map, List.length_take] at length
  generalize new.length = k at pos length ⊢
  obtain rfl | rfl | rfl | rfl : k = 1 ∨ k = 2 ∨ k = 3 ∨ k = 4 := by simp at length; omega
  all_goals simp [chipCommand]

section Open

variable {dev : M1urDevice}

theorem openStage_backendPower (stage : openStage dev = .backendPower) :
    (m1urBackendSetPower dev.available true dev.hw).1 ≠ 0 := by
  simp only [openStage] at stage
  split_ifs at stage with power
  exact power

theorem openStage_backendInit (stage : openStage dev = .backendInit) :
    (m1urBackendSetPower dev.available true dev.hw).1 = 0 ∧
      (m1urBackendInit (m1urBackendSetPower dev.available true dev.hw).2).1 ≠ 0 := by
  simp only [openStage] at stage
  split_ifs at stage with power init
  exact ⟨not_not.mp power, init⟩

theorem openStage_tcInitT (stage : openStage dev = .tcInitT) :
    (m1urBackendSetPower dev.available true dev.hw).1 = 0 ∧
      (m1urBackendInit (m1urBackendSetPower dev.available true dev.hw).2).1 = 0 ∧
      ((m1urBackendInit (m1urBackendSetPower dev.available true dev.hw).2).2.issue
        (.writeMultipleRegs .tc90522T tcInitT)).1.ret ≠ 0 := by
  simp only [openStage] at stage
  split_ifs at stage with power init regs
  exact ⟨not_not.mp power, not_not.mp init, regs⟩

theorem open_of_backendPower (stage : openStage dev = .backendPower) :
    (m1urChrdevOpen dev).1 ≠ 0 ∧ lastGpio (m1urChrdevOpen dev).2.hw.log 3 = some false ∧
      ∀ chip, chipLive (m1urChrdevOpen dev).2.hw.log chip = chipLive dev.hw.log chip := by
  have power := openStage_backendPower stage
  simp only [m1urChrdevOpen]
  rw [if_pos power]
  exact ⟨power, powerOn_spec dev.available dev.hw⟩

theorem open_of_backendInit (available : dev.available = true)
    (stage : openStage dev = .backendInit) :
    (m1urChrdevOpen dev).1 ≠ 0 ∧ RailOff (m1urChrdevOpen dev).2.hw.log ∧
      chipLive (m1urChrdevOpen dev).2.hw.log .tc90522T = true := by
  obtain ⟨power, init⟩ := openStage_backendInit stage
  simp only [m1urChrdevOpen]
  rw [if_neg (not_not.mpr power), if_pos init, available]
  exact ⟨init, railOff_powerOff _, by rw [chipLive_powerOff, chipLive_backendInit]⟩

theorem open_of_tcInitT (available : dev.available = true) (stage : openStage dev = .tcInitT) :
    (m1urChrdevOpen dev).1 ≠ 0 ∧ Quiet (m1urChrdevOpen dev).2.hw.log := by
  obtain ⟨power, init, regs⟩ := openStage_tcInitT stage
  simp only [m1urChrdevOpen]
  rw [if_neg (not_not.mpr power), if_neg (not_not.mpr init), if_pos regs, available]
  exact ⟨regs, quiet_powerOff_term _⟩

theorem release_quiet (available : dev.available = true) :
    Quiet (m1urChrdevRelease dev).2.hw.log := by
  simp only [m1urChrdevRelease, available]
  exact quiet_powerOff_term _

theorem open_shape : ∃ hw, (m1urChrdevOpen dev).2 =
    { dev with hw, kref := if (m1urChrdevOpen dev).1 = 0 then dev.kref + 1 else dev.kref } := by
  simp only [m1urChrdevOpen]
  generalize m1urBackendSetPower dev.available true dev.hw = power
  generalize m1urBackendInit power.2 = init
  generalize init.2.issue (.writeMultipleRegs .tc90522T tcInitT) = regs
  generalize runChecked openLater regs.2 = later
  by_cases power.1 = 0 <;> by_cases init.1 = 0 <;> by_cases regs.1.ret = 0 <;>
    by_cases later.1 = 0 <;> simp_all

theorem open_kref :
    (m1urChrdevOpen dev).2.kref =
      if (m1urChrdevOpen dev).1 = 0 then dev.kref + 1 else dev.kref := by
  obtain ⟨_, shape⟩ := @open_shape dev
  rw [shape]

@[simp] theorem open_available :
    (m1urChrdevOpen dev).2.available = dev.available := by
  obtain ⟨_, shape⟩ := @open_shape dev
  rw [shape]

@[simp] theorem release_kref : (m1urChrdevRelease dev).2.kref = dev.kref - 1 := rfl

@[simp] theorem release_available : (m1urChrdevRelease dev).2.available = dev.available := rfl

end Open

end PxM1ur
