import Mathlib.Data.Int.Notation
import TreeOptions.Foundations.TransitionSystem

/-!
# The launch lease

The lease is a file that names its owner by boot, pid and start ticks. An
existing file is held when its boot is the current one, its pid is alive and the
process with that pid started at the recorded tick (`classifyOwner`); anything
else may be adopted. `acquire` and `release` each run under one lock, so each is
one step.

Processes come and go around the file: they start under pids that are free, die,
and all end at a reboot. A process is its boot, pid and start ticks, and no such
triple comes back. `/proc` shows the live processes as they are.

At most one live process holds the lease, in every run from any content of the
file (`holder_unique`): a live holder is the owner the file names
(`Consistent.named`), so a second acquire finds the file held. It keeps the lease until it gives it
up or ends (`holder_stays`).
-/

set_option autoImplicit false

namespace TreeOptions.Runstate

structure LeaseOwner where
  pid : ℤ
  pidStartTicks : ℤ
  bootId : String
  startedEpoch : ℤ
  argvHash : String
  deriving DecidableEq

inductive LeaseClassification where
  | held
  | staleDeadPid
  | staleBootChanged
  | stalePidReused
  | torn
  deriving DecidableEq

/-- What tells one process from every other. -/
structure Process where
  bootId : String
  pid : ℤ
  startTicks : ℤ
  deriving DecidableEq

/-! ## `/proc` -/

def procPidAlive (live : List Process) (pid : ℤ) : Bool :=
  live.any fun process => process.pid = pid

def procStartTicks (live : List Process) (pid : ℤ) : Option ℤ :=
  (live.find? fun process => process.pid = pid).map Process.startTicks

/-- The owner record of a process. -/
def currentOwner (process : Process) (nowEpoch : ℤ) (argvHash : String) : LeaseOwner where
  pid := process.pid
  pidStartTicks := process.startTicks
  bootId := process.bootId
  startedEpoch := nowEpoch
  argvHash := argvHash

/-- The process an owner record names. -/
def LeaseOwner.process (owner : LeaseOwner) : Process :=
  ⟨owner.bootId, owner.pid, owner.pidStartTicks⟩

/-! ## The lease file -/

/-- Classify the decoded owner, none when the bytes do not decode. -/
def classifyOwner (owner : Option LeaseOwner) (bootIdNow : String) (live : List Process) :
    LeaseClassification :=
  match owner with
  | none => .torn
  | some owner =>
    if owner.bootId ≠ bootIdNow then .staleBootChanged
    else if procPidAlive live owner.pid = false then .staleDeadPid
    else match procStartTicks live owner.pid with
      | none => .stalePidReused
      | some liveTicks =>
        if liveTicks ≠ owner.pidStartTicks then .stalePidReused else .held

/-- The content of `owner.json`: absent, bytes that do not decode, or an owner. -/
abbrev OwnerFile :=
  Option (Option LeaseOwner)

/-- Why `acquire` is refused. -/
structure LeaseHeldError where
  classification : LeaseClassification

/-- Create or adopt the lease: the file afterwards and what the call returns. -/
def acquire (file : OwnerFile) (owner : LeaseOwner) (bootIdNow : String)
    (live : List Process) (allowStaleAdopt : Bool) :
    OwnerFile × Except LeaseHeldError LeaseClassification :=
  match file with
  | none => (some (some owner), .ok .held)
  | some raw =>
    let classification := classifyOwner raw bootIdNow live
    if classification = .held ∨ allowStaleAdopt = false then
      (file, .error ⟨classification⟩)
    else (some (some owner), .ok classification)

/-- Remove the lease when it still names this owner. -/
def release (file : OwnerFile) (owner : LeaseOwner) : OwnerFile × Bool :=
  match file with
  | none => (file, false)
  | some current => if current ≠ some owner then (file, false) else (none, true)

/-! ## Launchers -/

/-- The lease file among the processes of a machine. `used` and `boots` are the
processes and boots so far, `holders` the processes with an acquire that returned
and was not released. -/
structure Machine where
  bootId : String
  boots : List String
  live : List Process
  used : List Process
  file : OwnerFile
  holders : List Process
  deriving DecidableEq

inductive LeaseAction where
  | spawn (process : Process)
  | die (process : Process)
  | reboot (bootId : String)
  | acquire (process : Process) (nowEpoch : ℤ) (argvHash : String) (allowStaleAdopt : Bool)
  | release (process : Process) (nowEpoch : ℤ) (argvHash : String)

def Machine.step (machine : Machine) : LeaseAction → Option Machine
  | .spawn process =>
    if process.bootId = machine.bootId ∧ process ∉ machine.used ∧
        procPidAlive machine.live process.pid = false then
      some { machine with
        live := process :: machine.live, used := process :: machine.used }
    else none
  | .die process =>
    if process ∈ machine.live then
      some { machine with live := machine.live.filter (· ≠ process) }
    else none
  | .reboot bootId =>
    if bootId ∉ machine.boots then
      some { machine with bootId, boots := bootId :: machine.boots, live := [] }
    else none
  | .acquire process nowEpoch argvHash allowStaleAdopt =>
    if process ∈ machine.live then
      match Runstate.acquire machine.file (currentOwner process nowEpoch argvHash)
          machine.bootId machine.live allowStaleAdopt with
      | (file, .ok _) =>
        some { machine with file, holders := process :: machine.holders }
      | (file, .error _) => some { machine with file }
    else none
  | .release process nowEpoch argvHash =>
    if process ∈ machine.live then
      match Runstate.release machine.file (currentOwner process nowEpoch argvHash) with
      | (file, true) =>
        some { machine with
          file := file, holders := machine.holders.filter (· ≠ process) }
      | (file, false) => some { machine with file }
    else none

/-- A machine before any launcher ran: no acquire has returned, the file is as it
is, and the live processes have pids of their own. -/
structure Machine.Initial (machine : Machine) : Prop where
  noHolders : machine.holders = []
  boot : machine.bootId ∈ machine.boots
  used : ∀ process ∈ machine.live, process ∈ machine.used
  boots : ∀ process ∈ machine.live, process.bootId = machine.bootId
  pids : ∀ first ∈ machine.live, ∀ second ∈ machine.live, first.pid = second.pid → first = second

def leaseSystem : System Machine LeaseAction where
  Initial := Machine.Initial
  step := Machine.step

/-- The process is live and has an acquire that returned and was not released. -/
def Machine.Holds (machine : Machine) (process : Process) : Prop :=
  process ∈ machine.live ∧ process ∈ machine.holders

/-! ## The invariant -/

/-- What every machine in a run satisfies. -/
structure Consistent (machine : Machine) : Prop where
  used : ∀ process ∈ machine.live, process ∈ machine.used
  holdersUsed : ∀ process ∈ machine.holders, process ∈ machine.used
  boots : ∀ process ∈ machine.live, process.bootId = machine.bootId
  pids : ∀ first ∈ machine.live, ∀ second ∈ machine.live, first.pid = second.pid → first = second
  named : ∀ process, machine.Holds process →
    ∃ owner, machine.file = some (some owner) ∧ owner.process = process

variable {live : List Process}

theorem procPidAlive_of_mem {process : Process} (running : process ∈ live) :
    procPidAlive live process.pid = true := by
  simp only [procPidAlive, List.any_eq_true, decide_eq_true_eq]
  exact ⟨process, running, rfl⟩

theorem ne_pid_of_not_alive {pid : ℤ} (free : procPidAlive live pid = false) :
    ∀ process ∈ live, process.pid ≠ pid := by
  simpa [procPidAlive] using free

theorem procStartTicks_of_mem
    (pids : ∀ first ∈ live, ∀ second ∈ live, first.pid = second.pid → first = second)
    {process : Process} (running : process ∈ live) :
    procStartTicks live process.pid = some process.startTicks := by
  obtain ⟨found, search⟩ : ∃ found, live.find? (fun other => other.pid = process.pid) =
      some found := by
    rw [← Option.isSome_iff_exists, List.find?_isSome]
    exact ⟨process, running, by simp⟩
  have member : found ∈ live := List.mem_of_find?_eq_some search
  have samePid : found.pid = process.pid := by simpa using List.find?_some search
  rw [procStartTicks, search, Option.map_some, pids found member process running samePid]

/-- **The record of a live process is classified as held.** -/
theorem classifyOwner_of_live {bootIdNow : String}
    (pids : ∀ first ∈ live, ∀ second ∈ live, first.pid = second.pid → first = second)
    {owner : LeaseOwner} (running : owner.process ∈ live) (boot : owner.bootId = bootIdNow) :
    classifyOwner (some owner) bootIdNow live = .held := by
  have alive : procPidAlive live owner.pid = true := procPidAlive_of_mem running
  have ticks : procStartTicks live owner.pid = some owner.pidStartTicks :=
    procStartTicks_of_mem pids running
  simp [classifyOwner, boot, alive, ticks]

theorem process_currentOwner (process : Process) (nowEpoch : ℤ) (argvHash : String) :
    (currentOwner process nowEpoch argvHash).process = process := rfl

namespace Consistent

variable {machine next : Machine} {process : Process}

section

variable (consistent : Consistent machine)

include consistent

theorem acquire_refused (holds : machine.Holds process) (owner : LeaseOwner)
    (allowStaleAdopt : Bool) :
    acquire machine.file owner machine.bootId machine.live allowStaleAdopt =
      (machine.file, .error ⟨.held⟩) := by
  obtain ⟨current, file, rfl⟩ := consistent.named process holds
  have held := classifyOwner_of_live consistent.pids holds.1
    (consistent.boots current.process holds.1)
  rw [file, acquire]
  simp [held]

theorem step_spawn (taken : machine.step (.spawn process) = some next) : Consistent next := by
  simp only [Machine.step, Option.ite_none_right_eq_some, Option.some.injEq] at taken
  obtain ⟨⟨boot, new, free⟩, rfl⟩ := taken
  have apart := ne_pid_of_not_alive free
  refine ⟨?_, ?_, ?_, ?_, ?_⟩
  · simp only [List.forall_mem_cons, List.mem_cons_self, true_and]
    intro other running
    exact List.mem_cons_of_mem _ (consistent.used other running)
  · intro other holder
    exact List.mem_cons_of_mem _ (consistent.holdersUsed other holder)
  · exact List.forall_mem_cons.mpr ⟨boot, consistent.boots⟩
  · intro first firstRuns second secondRuns samePid
    rcases List.mem_cons.mp firstRuns with rfl | firstRan
    · rcases List.mem_cons.mp secondRuns with rfl | secondRan
      · rfl
      · exact absurd samePid.symm (apart second secondRan)
    · rcases List.mem_cons.mp secondRuns with rfl | secondRan
      · exact absurd samePid (apart first firstRan)
      · exact consistent.pids first firstRan second secondRan samePid
  · rintro other ⟨running, holder⟩
    rcases List.mem_cons.mp running with rfl | running
    · exact absurd (consistent.holdersUsed other holder) new
    · exact consistent.named other ⟨running, holder⟩

theorem step_die (taken : machine.step (.die process) = some next) : Consistent next := by
  simp only [Machine.step, Option.ite_none_right_eq_some, Option.some.injEq] at taken
  obtain ⟨-, rfl⟩ := taken
  have running : ∀ other, other ∈ machine.live.filter (· ≠ process) → other ∈ machine.live :=
    fun other member => (List.mem_filter.mp member).1
  exact ⟨fun other member => consistent.used other (running other member),
    consistent.holdersUsed,
    fun other member => consistent.boots other (running other member),
    fun first firstRuns second secondRuns =>
      consistent.pids first (running first firstRuns) second (running second secondRuns),
    fun other holds => consistent.named other ⟨running other holds.1, holds.2⟩⟩

theorem step_reboot {bootId : String} (taken : machine.step (.reboot bootId) = some next) :
    Consistent next := by
  simp only [Machine.step, Option.ite_none_right_eq_some, Option.some.injEq] at taken
  obtain ⟨-, rfl⟩ := taken
  refine ⟨by simp, consistent.holdersUsed, by simp, by simp, ?_⟩
  rintro other ⟨running, -⟩
  exact absurd running (by simp)

theorem step_acquire {nowEpoch : ℤ} {argvHash : String} {allowStaleAdopt : Bool}
    (taken : machine.step (.acquire process nowEpoch argvHash allowStaleAdopt) = some next) :
    Consistent next := by
  simp only [Machine.step, Option.ite_none_right_eq_some] at taken
  obtain ⟨running, taken⟩ := taken
  by_cases someone : ∃ other, machine.Holds other
  · -- the lease is held, so the call is refused and changes nothing
    obtain ⟨other, holds⟩ := someone
    rw [consistent.acquire_refused holds] at taken
    cases taken
    exact consistent
  · -- nobody live holds the lease, so whoever gets it is the only one
    rw [not_exists] at someone
    split at taken
    case h_1 file classification granted =>
      cases taken
      have named : file = some (some (currentOwner process nowEpoch argvHash)) := by
        unfold acquire at granted
        split at granted
        case h_1 => exact (Prod.mk.inj granted).1.symm
        case h_2 =>
          dsimp only at granted
          split at granted
          case isTrue => simp at granted
          case isFalse => exact (Prod.mk.inj granted).1.symm
      refine ⟨consistent.used, ?_, consistent.boots, consistent.pids, ?_⟩
      · exact List.forall_mem_cons.mpr ⟨consistent.used process running, consistent.holdersUsed⟩
      · rintro other ⟨otherRuns, holder⟩
        rcases List.mem_cons.mp holder with rfl | holder
        · exact ⟨_, named, process_currentOwner other nowEpoch argvHash⟩
        · exact absurd ⟨otherRuns, holder⟩ (someone other)
    case h_2 file refusal refused =>
      cases taken
      exact ⟨consistent.used, consistent.holdersUsed, consistent.boots, consistent.pids,
        fun other holds => absurd holds (someone other)⟩

end

theorem release_false {file after : OwnerFile} {owner : LeaseOwner}
    (refused : release file owner = (after, false)) : after = file := by
  unfold release at refused
  split at refused
  case h_1 => exact (Prod.mk.inj refused).1.symm
  case h_2 =>
    split at refused
    case isTrue => exact (Prod.mk.inj refused).1.symm
    case isFalse => simp at refused

theorem release_true {file after : OwnerFile} {owner : LeaseOwner}
    (happened : release file owner = (after, true)) : file = some (some owner) := by
  unfold release at happened
  split at happened
  case h_1 => simp at happened
  case h_2 current =>
    split at happened
    case isTrue => simp at happened
    case isFalse same => rw [not_not.mp same]

theorem step_release (consistent : Consistent machine) {nowEpoch : ℤ} {argvHash : String}
    (taken : machine.step (.release process nowEpoch argvHash) = some next) : Consistent next := by
  simp only [Machine.step, Option.ite_none_right_eq_some] at taken
  obtain ⟨-, taken⟩ := taken
  split at taken
  case h_1 file happened =>
    cases taken
    have kept : ∀ other, other ∈ machine.holders.filter (· ≠ process) →
        other ∈ machine.holders ∧ other ≠ process := by
      intro other member
      simpa using List.mem_filter.mp member
    refine ⟨consistent.used, fun other member =>
      consistent.holdersUsed other (kept other member).1, consistent.boots, consistent.pids, ?_⟩
    rintro other ⟨running, holder⟩
    obtain ⟨owner, named, same⟩ := consistent.named other ⟨running, (kept other holder).1⟩
    rw [release_true happened] at named
    obtain rfl : currentOwner process nowEpoch argvHash = owner := by simpa using named
    exact absurd same.symm (kept other holder).2
  case h_2 file refused =>
    cases taken
    rw [release_false refused]
    exact consistent

end Consistent

/-- **Every step keeps the invariant.** -/
theorem consistent_step {machine next : Machine} {action : LeaseAction}
    (consistent : Consistent machine) (taken : machine.step action = some next) :
    Consistent next := by
  cases action with
  | spawn process => exact consistent.step_spawn taken
  | die process => exact consistent.step_die taken
  | reboot bootId => exact consistent.step_reboot taken
  | acquire process nowEpoch argvHash allowStaleAdopt => exact consistent.step_acquire taken
  | release process nowEpoch argvHash => exact consistent.step_release taken

theorem consistent_of_reachable {machine : Machine} (reached : leaseSystem.Reachable machine) :
    Consistent machine := by
  refine System.Reachable.invariant ?_ (fun _ _ _ => consistent_step) reached
  intro machine starts
  refine ⟨starts.used, ?_, starts.boots, starts.pids, ?_⟩
  · simp [starts.noHolders]
  · rintro process ⟨-, holder⟩
    exact absurd holder (by simp [starts.noHolders])

/-- **At most one live process holds the lease, and only the recorded owner can
remove it.** -/
theorem holder_unique {machine : Machine} (reached : leaseSystem.Reachable machine) :
    (∀ first second, machine.Holds first → machine.Holds second → first = second) ∧
      ∀ (owner : LeaseOwner) (process : Process) (nowEpoch : ℤ) (argvHash : String)
        (next : Machine), machine.file = some (some owner) → owner.process ≠ process →
        machine.step (.release process nowEpoch argvHash) = some next →
        next.file = machine.file := by
  have consistent := consistent_of_reachable reached
  constructor
  · intro first second firstHolds secondHolds
    obtain ⟨owner, named, rfl⟩ := consistent.named first firstHolds
    obtain ⟨owner', named', rfl⟩ := consistent.named second secondHolds
    rw [named] at named'
    rw [Option.some.inj (Option.some.inj named')]
  · intro owner process nowEpoch argvHash next named other taken
    have apart : some owner ≠ some (currentOwner process nowEpoch argvHash) := by
      intro same
      rw [Option.some.inj same] at other
      exact other rfl
    have refused : release machine.file (currentOwner process nowEpoch argvHash) =
        (machine.file, false) := by
      rw [named, release, if_pos apart]
    simp only [Machine.step, Option.ite_none_right_eq_some, refused] at taken
    obtain ⟨-, taken⟩ := taken
    rw [← Option.some.inj taken]

/-- A launcher that took the lease over from a dead one, and the dead one's boot. -/
def adoptedMachine : Machine where
  bootId := "boot-a"
  boots := ["boot-a"]
  live := [⟨"boot-a", 200, 90⟩]
  used := [⟨"boot-a", 200, 90⟩, ⟨"boot-a", 100, 10⟩]
  file := some (some ⟨200, 90, "boot-a", 2, "argv"⟩)
  holders := [⟨"boot-a", 200, 90⟩, ⟨"boot-a", 100, 10⟩]

theorem reachable_adoptedMachine : leaseSystem.Reachable adoptedMachine := by
  have starts : leaseSystem.Initial ⟨"boot-a", ["boot-a"], [], [], none, []⟩ :=
    ⟨rfl, by simp, by simp, by simp, by simp⟩
  refine System.ReachableUnder.run (.initial starts) (fun _ _ _ => trivial) (show leaseSystem.run _
    [.spawn ⟨"boot-a", 100, 10⟩, .acquire ⟨"boot-a", 100, 10⟩ 1 "argv" false,
      .die ⟨"boot-a", 100, 10⟩, .spawn ⟨"boot-a", 200, 90⟩,
      .acquire ⟨"boot-a", 200, 90⟩ 2 "argv" true] = _ from ?_)
  decide

theorem holder_unique_adopted :
    (∀ first second, adoptedMachine.Holds first → adoptedMachine.Holds second →
        first = second) ∧
      ∀ (owner : LeaseOwner) (process : Process) (nowEpoch : ℤ) (argvHash : String)
        (next : Machine), adoptedMachine.file = some (some owner) → owner.process ≠ process →
        adoptedMachine.step (.release process nowEpoch argvHash) = some next →
        next.file = adoptedMachine.file :=
  holder_unique reachable_adoptedMachine

/-! ## A live holder -/

/-- What takes the lease from its holder. -/
def LeaseAction.Ends (process : Process) : LeaseAction → Prop
  | .die other | .release other _ _ => other = process
  | .reboot _ => True
  | _ => False

theorem Consistent.stays {machine next : Machine} {action : LeaseAction} {process : Process}
    (consistent : Consistent machine) (holds : machine.Holds process)
    (stays : ¬ action.Ends process) (taken : machine.step action = some next) :
    next.Holds process ∧ next.file = machine.file := by
  cases action with
  | spawn other =>
    simp only [Machine.step, Option.ite_none_right_eq_some, Option.some.injEq] at taken
    obtain ⟨-, rfl⟩ := taken
    exact ⟨⟨List.mem_cons_of_mem _ holds.1, holds.2⟩, rfl⟩
  | die other =>
    simp only [Machine.step, Option.ite_none_right_eq_some, Option.some.injEq] at taken
    obtain ⟨-, rfl⟩ := taken
    exact ⟨⟨List.mem_filter.mpr ⟨holds.1, decide_eq_true (Ne.symm stays)⟩, holds.2⟩, rfl⟩
  | reboot bootId => exact absurd trivial stays
  | acquire other nowEpoch argvHash allowStaleAdopt =>
    simp only [Machine.step, consistent.acquire_refused holds, Option.ite_none_right_eq_some,
      Option.some.injEq] at taken
    obtain ⟨-, rfl⟩ := taken
    exact ⟨holds, rfl⟩
  | release other nowEpoch argvHash =>
    obtain ⟨owner, named, rfl⟩ := consistent.named process holds
    have refused : release machine.file (currentOwner other nowEpoch argvHash) =
        (machine.file, false) := by
      rw [named, release, if_pos]
      rintro ⟨⟩
      exact stays rfl
    simp only [Machine.step, refused, Option.ite_none_right_eq_some, Option.some.injEq] at taken
    obtain ⟨-, rfl⟩ := taken
    exact ⟨holds, rfl⟩

/-- **A live holder keeps the lease until it releases it, dies or loses the boot.** -/
theorem holder_stays {first last : Machine} {process : Process}
    (reached : leaseSystem.Reachable first) (holds : first.Holds process)
    (leads : leaseSystem.LeadsUnder (fun _ action => ¬ action.Ends process) first last) :
    last.Holds process ∧ last.file = first.file := by
  suffices kept : Consistent last ∧ last.Holds process ∧ last.file = first.file from kept.2
  induction leads with
  | refl => exact ⟨consistent_of_reachable reached, holds, rfl⟩
  | step before stays taken ih =>
    obtain ⟨consistent, still, same⟩ := ih
    obtain ⟨holds', file⟩ := consistent.stays still stays taken
    exact ⟨consistent_step consistent taken, holds', file.trans same⟩

/-- The machine on which a second launcher was refused. -/
def contendedMachine : Machine :=
  { adoptedMachine with
    live := [⟨"boot-a", 300, 95⟩, ⟨"boot-a", 200, 90⟩]
    used := ⟨"boot-a", 300, 95⟩ :: adoptedMachine.used }

theorem holder_stays_contended : contendedMachine.Holds ⟨"boot-a", 200, 90⟩ ∧
    contendedMachine.file = adoptedMachine.file := by
  have spawned : leaseSystem.step adoptedMachine (.spawn ⟨"boot-a", 300, 95⟩) =
    some contendedMachine := rfl
  have refused : leaseSystem.step contendedMachine (.acquire ⟨"boot-a", 300, 95⟩ 3 "argv" true) =
    some contendedMachine := rfl
  refine holder_stays reachable_adoptedMachine ⟨by decide, by decide⟩
    (.step (.step .refl ?_ spawned) ?_ refused)
  · exact id
  · exact id

end TreeOptions.Runstate
