import Mathlib.Data.List.Chain
import Mathlib.Data.List.Perm.Subperm
import Mathlib.Tactic.Linarith
import TreeOptions.Foundations.TransitionSystem

/-!
# The restart budget of the gateway watchdog

Once a minute the watchdog looks at the gateway, and restarts its container when a login is stuck or
the API stays silent: two hours apart, and four times in 24 hours. The restarts are booked in one
state file before docker acts. A file that cannot be read may hide recent restarts, but it is
replaced by a ledger without any that holds restarts for two hours only, so after such a run the
budget of the day is spent anew (`forgotten_restarts`). In a run in which a state is replaced only
when the last restart is 16 hours old, the budget holds (`restarts_capped_of_old_losses`). The
cooldown holds in every run (`restarts_spaced`).

Instants are in seconds. The notices, x11vnc and the events are left out.
-/

set_option autoImplicit false

namespace TreeOptions.Gateway

def startupGraceS : ℚ := 180

def apiDownAfterS : ℚ := 300

def needsLoginAfterS : ℚ := 600

def restartCooldownS : ℚ := 2 * 3600

def restartsPerDay : ℕ := 4

def dayS : ℚ := 86400

inductive Phase
  | loggedIn | twofa | authenticating | loginDialog | starting | shuttingDown | unknown
deriving DecidableEq

inductive Status
  | ok | starting | checking | needsLogin | needs2fa | apiDown | down
deriving DecidableEq

structure IbcState where
  phase : Phase
  since : Option ℚ

structure Observation where
  now : ℚ
  containerRunning : Bool
  containerStarted : Option ℚ
  apiOk : Bool
  ibc : IbcState
  ibcObserved : Bool

/-- The state file. -/
structure Ledger where
  restarts : List ℚ := []
  restartHoldUntil : Option ℚ := none
  containerStarted : Option ℚ := none
  ibc : IbcState := ⟨.unknown, none⟩
  apiFailSince : Option ℚ := none

/-! ## One decision -/

def apiSilent (failFor : ℚ) : Status :=
  if failFor < apiDownAfterS then .checking else .apiDown

def classify (obs : Observation) (apiFailFor : ℚ) : Status :=
  let age := obs.ibc.since.map fun since => obs.now - since
  let young := obs.containerStarted.any fun started => obs.now - started < startupGraceS
  if !obs.containerRunning then .down
  else if obs.apiOk then .ok
  else match obs.ibc.phase with
    | .twofa => .needs2fa
    | .loggedIn =>
      if young || age.any (· < startupGraceS) then .starting else apiSilent apiFailFor
    | .unknown => if young then .starting else apiSilent apiFailFor
    | _ => if age.any (needsLoginAfterS ≤ ·) then .needsLogin else .starting

def restartable (status : Status) : Bool :=
  status ∈ [.needsLogin, .apiDown]

/-- The log window was empty, but the last phase of the same container still holds. -/
def remembered (obs : Observation) (prior : Ledger) : IbcState :=
  if obs.ibc.phase = .unknown ∧ obs.containerStarted.isSome ∧
      prior.containerStarted = obs.containerStarted ∧ prior.ibc.phase ≠ .unknown then prior.ibc
  else obs.ibc

/-- An instant of zero counts as none. -/
def failingSince (obs : Observation) (prior : Ledger) : Option ℚ :=
  if obs.apiOk then none else some ((prior.apiFailSince.filter (· ≠ 0)).getD obs.now)

/-- The restarts of the last 24 hours. -/
def recent (prior : Ledger) (now : ℚ) : List ℚ :=
  prior.restarts.filter fun restart => now - restart < dayS

def canRestart (obs : Observation) (prior : Ledger) : Bool :=
  obs.ibcObserved && !prior.restartHoldUntil.any (obs.now < ·) &&
    (recent prior obs.now).length < restartsPerDay &&
    (recent prior obs.now).getLast?.all fun last => restartCooldownS ≤ obs.now - last

def statusOf (obs : Observation) (prior : Ledger) : Status :=
  let since := (failingSince obs prior).filter (· ≠ 0)
  classify { obs with ibc := remembered obs prior } ((since.map (obs.now - ·)).getD 0)

/-- The next state, and whether the container is to be restarted. -/
def decide (obs : Observation) (prior : Ledger) : Ledger × Bool :=
  let restart := restartable (statusOf obs prior) && canRestart obs prior
  ({ restarts := if restart then recent prior obs.now ++ [obs.now] else recent prior obs.now
     restartHoldUntil := prior.restartHoldUntil.filter (obs.now < ·)
     containerStarted := obs.containerStarted
     ibc := remembered obs prior
     apiFailSince := failingSince obs prior }, restart)

/-! ## One run of the watchdog -/

/-- What one run meets: what it sees, whether the file is readable, which of its writes are made
(a process that died made none), and whether the API answers again before docker acts. -/
structure Run where
  obs : Observation
  readable : Bool
  dryRun : Bool
  reserved : Bool
  dies : Bool
  apiBack : Bool
  written : Bool

/-- A missing file is a fresh start. -/
def readState (run : Run) (file : Option Ledger) : Ledger :=
  if run.readable then file.getD {}
  else { restartHoldUntil := some (run.obs.now + restartCooldownS) }

def Ledger.releaseRestart (state : Ledger) : Ledger :=
  { state with restarts := state.restarts.dropLast }

/-- The file after a run, and whether docker restarted the container. -/
def watchOnce (run : Run) (file : Option Ledger) : Option Ledger × Bool :=
  let decided := decide run.obs (readState run file)
  let state := decided.1
  let write (state : Ledger) (file : Option Ledger) := if run.written then some state else file
  if run.dryRun then (file, false)
  else if !decided.2 then (write state file, false)
  -- the attempt is reserved before docker acts
  else if !run.reserved then (write state.releaseRestart file, false)
  else if run.dies then (some state, false)
  else if run.apiBack then (write state.releaseRestart (some state), false)
  else (some state, true)

/-- The file, and the restarts that docker was asked for, the newest first. -/
structure Watchdog where
  file : Option Ledger
  issued : List ℚ
  clock : ℚ

def Watchdog.next (state : Watchdog) (run : Run) : Watchdog :=
  let watched := watchOnce run state.file
  ⟨watched.1, if watched.2 then run.obs.now :: state.issued else state.issued, run.obs.now⟩

def watchdogSystem : System Watchdog Run where
  Initial state := state.file = none ∧ state.issued = []
  step state run := if state.clock ≤ run.obs.now then some (state.next run) else none

/-- Restarts keep the cooldown, and no 24 hours see more than the budget of a day. -/
structure Capped (issued : List ℚ) : Prop where
  spaced : issued.IsChain fun later earlier => restartCooldownS ≤ later - earlier
  daily : ∀ start, (issued.filter fun restart =>
    start ≤ restart ∧ restart < start + dayS).length ≤ restartsPerDay

/-! ## What a run keeps -/

/-- Nothing that was booked in the last 24 hours is lost. -/
structure Kept (prior : Ledger) (now : ℚ) (state : Ledger) : Prop where
  restarts : state.restarts = recent prior now ∨ state.restarts = recent prior now ++ [now]
  hold : state.restartHoldUntil = prior.restartHoldUntil.filter (now < ·)

/-- The run replaces a state that it could not read. -/
def Run.Forgets (run : Run) : Prop :=
  run.readable = false ∧ run.dryRun = false ∧ run.written = true

variable {run : Run} {file : Option Ledger} {obs : Observation} {prior : Ledger}

theorem restarts_decide (restarts : (decide obs prior).2 = true) :
    (decide obs prior).1.restarts = recent prior obs.now ++ [obs.now] :=
  if_pos restarts

theorem kept_decide : Kept prior obs.now (decide obs prior).1 := by
  refine ⟨?_, rfl⟩
  cases restart : (decide obs prior).2 with
  | false => exact .inl (if_neg (Bool.eq_false_iff.mp restart))
  | true => exact .inr (restarts_decide restart)

theorem kept_release (restarts : (decide obs prior).2 = true) :
    Kept prior obs.now (decide obs prior).1.releaseRestart := by
  refine ⟨.inl ?_, rfl⟩
  rw [Ledger.releaseRestart, restarts_decide restarts, List.dropLast_concat]

theorem not_restarts_of_unreadable (unreadable : run.readable = false) :
    (decide run.obs (readState run file)).2 = false := by
  simp [decide, canRestart, readState, unreadable, restartCooldownS]

/-- A run leaves the file, or writes what it keeps, or restarts the container. -/
theorem watchOnce_cases (run : Run) (file : Option Ledger) :
    watchOnce run file = (file, false) ∨
      (∃ state, Kept (readState run file) run.obs.now state ∧
        (run.readable = true ∨ run.Forgets) ∧ watchOnce run file = (some state, false)) ∨
      run.readable = true ∧ (decide run.obs (readState run file)).2 = true ∧
        watchOnce run file = (some (decide run.obs (readState run file)).1, true) := by
  have kept : Kept (readState run file) run.obs.now _ := kept_decide
  have released := @kept_release run.obs (readState run file)
  have unreadable := @not_restarts_of_unreadable run file
  cases readable : run.readable <;> cases dry : run.dryRun <;> cases written : run.written <;>
    cases restarts : (decide run.obs (readState run file)).2 <;> grind [watchOnce, Run.Forgets]

/-! ## The invariant -/

/-- The newest restarts are booked, or a day old, and the first that is lost is 18 hours before the
next one. -/
def Remembers (ledger : Ledger) (clock : ℚ) : ℚ → List ℚ → Prop
  | _, [] => True
  | bound, restart :: earlier =>
    restart + (dayS - 3 * restartCooldownS) ≤ bound ∨
      (restart ∈ ledger.restarts ∨ restart + dayS ≤ clock) ∧ Remembers ledger clock restart earlier

structure Accounted (ledger : Ledger) (clock : ℚ) (issued : List ℚ) : Prop where
  sorted : ledger.restarts.Pairwise (· ≤ ·)
  past : ∀ restart ∈ ledger.restarts, restart ≤ clock
  remembers : ∃ bound, (bound ≤ clock ∨ ∃ hold ∈ ledger.restartHoldUntil, bound ≤ hold) ∧
    Remembers ledger clock bound issued

variable {ledger state : Ledger} {clock now bound bound' : ℚ} {issued : List ℚ}

theorem Remembers.mono (remembers : Remembers ledger clock bound issued)
    (booked : ∀ restart ∈ ledger.restarts, restart ∈ state.restarts ∨ restart + dayS ≤ now)
    (le : clock ≤ now) (later : bound ≤ bound') : Remembers state now bound' issued := by
  induction issued generalizing bound bound' with
  | nil => trivial
  | cons restart earlier ih =>
    rcases remembers with lost | ⟨isBooked | old, rest⟩
    · exact .inl (lost.trans later)
    · exact .inr ⟨booked restart isBooked, ih rest le_rfl⟩
    · exact .inr ⟨.inr (old.trans le), ih rest le_rfl⟩

theorem Accounted.later (accounted : Accounted ledger clock issued) (le : clock ≤ now) :
    Accounted ledger now issued := by
  obtain ⟨sorted, past, bound, notBefore, remembers⟩ := accounted
  exact ⟨sorted, fun restart booked => (past restart booked).trans le, bound,
    notBefore.imp_left le.trans', remembers.mono (fun _ => .inl) le le_rfl⟩

theorem mem_recent {restart : ℚ} :
    restart ∈ recent prior now ↔ restart ∈ prior.restarts ∧ now < restart + dayS := by
  rw [recent, List.mem_filter, decide_eq_true_iff, sub_lt_iff_lt_add']

theorem recent_or_old {restart : ℚ} (booked : restart ∈ prior.restarts) :
    restart ∈ recent prior now ∨ restart + dayS ≤ now :=
  (lt_or_ge now _).imp_left fun young => mem_recent.mpr ⟨booked, young⟩

theorem Kept.booked_or_old (kept : Kept prior now state) {restart : ℚ}
    (booked : restart ∈ prior.restarts) : restart ∈ state.restarts ∨ restart + dayS ≤ now := by
  refine (recent_or_old booked).imp_left fun isRecent => ?_
  rcases kept.restarts with same | same <;> simp [same, isRecent]

theorem Kept.hold_or_ended (kept : Kept prior now state) {hold : ℚ}
    (isHold : hold ∈ prior.restartHoldUntil) : hold ∈ state.restartHoldUntil ∨ hold ≤ now :=
  (lt_or_ge now hold).imp_left fun held =>
    kept.hold ▸ Option.mem_filter_iff.mpr ⟨isHold, by simpa⟩

theorem Accounted.kept (accounted : Accounted prior now issued) (kept : Kept prior now state) :
    Accounted state now issued := by
  obtain ⟨sorted, past, bound, notBefore, remembers⟩ := accounted
  have sorted' : (recent prior now).Pairwise (· ≤ ·) := sorted.filter _
  have past' : ∀ restart ∈ recent prior now, restart ≤ now :=
    fun restart isRecent => past restart (mem_recent.mp isRecent).1
  refine ⟨?_, ?_, bound, ?_, remembers.mono (fun _ => kept.booked_or_old) le_rfl le_rfl⟩
  · rcases kept.restarts with same | same
    · rwa [same]
    · simpa [same, List.pairwise_append] using ⟨sorted', past'⟩
  · rcases kept.restarts with same | same
    · rwa [same]
    · simpa [same, or_imp, forall_and] using past'
  · rcases notBefore with early | ⟨hold, isHold, le⟩
    · exact .inl early
    · exact (kept.hold_or_ended isHold).symm.imp le.trans fun held => ⟨hold, held, le⟩

/-! ## A restart -/

theorem Capped.falls (capped : Capped issued) : issued.Pairwise (· > ·) := by
  have positive : 0 < restartCooldownS := by decide +kernel
  exact (capped.spaced.imp fun later earlier apart => by linarith).pairwise

section Restart

variable (can : canRestart obs prior = true)

include can

theorem few_recent : (recent prior obs.now).length < restartsPerDay := by
  simp_all [canRestart]

theorem le_of_hold {hold : ℚ} (isHold : prior.restartHoldUntil = some hold) : hold ≤ obs.now := by
  simp_all [canRestart]

theorem apart_of_getLast {last : ℚ} (isLast : (recent prior obs.now).getLast? = some last) :
    restartCooldownS ≤ obs.now - last := by
  simp_all [canRestart]

variable (accounted : Accounted prior obs.now issued)

include accounted

theorem apart_of_booked {last : ℚ} (booked : last ∈ prior.restarts) :
    restartCooldownS ≤ obs.now - last := by
  have short : restartCooldownS ≤ dayS := by decide +kernel
  rcases recent_or_old booked with isRecent | old
  · have apart := apart_of_getLast can
      (List.getLast?_eq_some_getLast (List.ne_nil_of_mem isRecent))
    have sorted : (recent prior obs.now).Pairwise (· ≤ ·) := accounted.sorted.filter _
    have le := sorted.rel_getLast isRecent
    linarith
  · linarith

theorem remembers_of_can : Remembers prior obs.now obs.now issued := by
  obtain ⟨-, -, bound, early | ⟨hold, isHold, le⟩, remembers⟩ := accounted
  · exact remembers.mono (fun _ => .inl) le_rfl early
  · exact remembers.mono (fun _ => .inl) le_rfl (le.trans (le_of_hold can isHold))

theorem cooled {last : ℚ} (isLast : last ∈ issued.head?) : restartCooldownS ≤ obs.now - last := by
  have lengths : 0 < restartCooldownS ∧ 4 * restartCooldownS ≤ dayS := by decide +kernel
  obtain ⟨earlier, rfl⟩ := List.head?_eq_some_iff.mp isLast
  rcases remembers_of_can can accounted with lost | ⟨booked | old, -⟩
  · linarith
  · exact apart_of_booked can accounted booked
  · linarith

/-- Of four restarts the first is a day old. -/
theorem old_of_four {a b c d : ℚ} {rest : List ℚ} (four : issued = a :: b :: c :: d :: rest)
    (capped : Capped issued) : d + dayS ≤ obs.now := by
  have positive : 0 < restartCooldownS := by decide +kernel
  have cool : restartCooldownS ≤ obs.now - a := cooled can accounted (by rw [four]; rfl)
  have remembers := remembers_of_can can accounted
  subst four
  obtain ⟨ab, bc, cd, -⟩ : restartCooldownS ≤ a - b ∧ restartCooldownS ≤ b - c ∧
      restartCooldownS ≤ c - d ∧ _ := by simpa using capped.spaced
  by_contra! young
  have isRecent {restart : ℚ} (le : d ≤ restart)
      (booked : restart ∈ prior.restarts ∨ restart + dayS ≤ obs.now) :
      restart ∈ recent prior obs.now :=
    (booked.elim recent_or_old .inr).resolve_right (by linarith)
  rcases remembers with lost | ⟨bookedA, lost | ⟨bookedB, lost | ⟨bookedC, lost | ⟨bookedD, -⟩⟩⟩⟩
  · linarith
  · linarith
  · linarith
  · linarith
  · have subset : [a, b, c, d] ⊆ recent prior obs.now := by
      simp only [List.cons_subset, List.nil_subset, and_true]
      exact ⟨isRecent (by linarith) bookedA, isRecent (by linarith) bookedB,
        isRecent (by linarith) bookedC, isRecent le_rfl bookedD⟩
    have distinct : [a, b, c, d].Nodup :=
      (capped.falls.sublist (List.sublist_append_left [a, b, c, d] rest)).imp ne_of_gt
    exact absurd (distinct.subperm subset).length_le (few_recent can).not_ge

theorem capped_restart (capped : Capped issued) : Capped (obs.now :: issued) where
  spaced := List.isChain_cons.mpr ⟨fun _ isLast => cooled can accounted isLast, capped.spaced⟩
  daily start := by
    by_cases inside : start ≤ obs.now ∧ obs.now < start + dayS
    · rw [List.filter_cons_of_pos (by simpa using inside)]
      refine Nat.succ_le_succ ?_
      match issued with
      | [] | [_] | [_, _] | [_, _, _] => exact (List.length_filter_le ..).trans (by simp)
      | a :: b :: c :: d :: rest =>
        have old := old_of_four can accounted rfl capped
        have gone : (d :: rest).filter
            (fun restart => start ≤ restart ∧ restart < start + dayS) = [] := by
          refine List.filter_eq_nil_iff.mpr fun restart isMember within => ?_
          have falls := capped.falls.sublist (List.sublist_append_right [a, b, c] (d :: rest))
          have le : restart ≤ d := by
            rcases List.mem_cons.mp isMember with rfl | older
            · exact le_rfl
            · exact ((List.pairwise_cons.mp falls).1 restart older).le
          have within : start ≤ restart ∧ restart < start + dayS := by simpa using within
          linarith
        rw [show a :: b :: c :: d :: rest = [a, b, c] ++ d :: rest from rfl, List.filter_append,
          gone, List.append_nil]
        exact List.length_filter_le ..
    · rw [List.filter_cons_of_neg (by simpa using inside)]
      exact capped.daily start

theorem accounted_restart (restarts : (decide obs prior).2 = true) :
    Accounted (decide obs prior).1 obs.now (obs.now :: issued) := by
  obtain ⟨sorted, past, -⟩ := accounted.kept kept_decide
  have remembers := remembers_of_can can accounted
  have booked := restarts_decide restarts
  refine ⟨sorted, past, obs.now, .inl le_rfl, .inr ⟨.inl ?_, remembers.mono ?_ le_rfl le_rfl⟩⟩
  · rw [booked]
    exact List.mem_concat_self
  · intro restart isBooked
    rw [booked]
    exact (recent_or_old isBooked).imp_left (List.mem_append_left _)

end Restart

/-! ## Runs -/

/-- Where a state is replaced that could not be read, the last restart is 16 hours old. -/
def LostLate (state : Watchdog) (run : Run) : Prop :=
  run.Forgets → ∀ restart ∈ state.issued, restart + (dayS - 4 * restartCooldownS) ≤ run.obs.now

structure Watchdog.Sound (state : Watchdog) : Prop where
  capped : Capped state.issued
  accounted : Accounted (state.file.getD {}) state.clock state.issued

theorem Watchdog.Sound.next {world : Watchdog} (sound : world.Sound) (late : LostLate world run)
    (le : world.clock ≤ run.obs.now) : (world.next run).Sound := by
  have later := sound.accounted.later le
  have read (known : run.readable = true ∨ run.Forgets) :
      Accounted (readState run world.file) run.obs.now world.issued := by
    rcases known with readable | forgets
    · rwa [readState, if_pos readable]
    · rw [readState, if_neg (Bool.eq_false_iff.mp forgets.1)]
      refine ⟨.nil, nofun, _, .inr ⟨_, rfl, le_rfl⟩, ?_⟩
      cases issued : world.issued with
      | nil => trivial
      | cons last earlier =>
        have old := late forgets last (issued ▸ List.mem_cons_self)
        exact .inl (by linarith)
  rcases watchOnce_cases run world.file with
    same | ⟨state, kept, known, same⟩ | ⟨readable, restarts, same⟩
  · simp only [Watchdog.next, same]
    exact ⟨sound.capped, later⟩
  · simp only [Watchdog.next, same]
    exact ⟨sound.capped, (read known).kept kept⟩
  · have can : canRestart run.obs (readState run world.file) = true :=
      (Bool.and_eq_true_iff.mp restarts).2
    have accounted := read (.inl readable)
    simp only [Watchdog.next, same]
    exact ⟨capped_restart can accounted sound.capped, accounted_restart can accounted restarts⟩

/-- **Restarts keep the cooldown and the budget of a day** in a run in which a state is replaced
only when the last restart is 16 hours old. -/
theorem restarts_capped_of_old_losses {state : Watchdog}
    (reached : watchdogSystem.ReachableUnder LostLate state) : Capped state.issued := by
  suffices sound : state.Sound from sound.capped
  refine reached.invariant ?_ ?_
  · rintro ⟨file, issued, clock⟩ ⟨rfl, rfl⟩
    exact ⟨⟨.nil, fun _ => Nat.zero_le _⟩, ⟨.nil, nofun, clock, .inl le_rfl, trivial⟩⟩
  · intro world run next sound late taken
    obtain ⟨le, rfl⟩ : world.clock ≤ run.obs.now ∧ world.next run = next := by
      simpa [watchdogSystem] using taken
    exact sound.next late le

/-! ## A state that is lost -/

/-- A run that sees a login that is stuck. -/
def stuckRun (hours : ℚ) (readable : Bool) : Run :=
  { obs := ⟨hours * 3600, true, none, false, ⟨.starting, some (-7200)⟩, true⟩
    readable
    dryRun := false
    reserved := true
    dies := false
    apiBack := false
    written := true }

theorem issued_forgotten :
    (watchdogSystem.run ⟨none, [], 0⟩ [stuckRun 0 true, stuckRun 0 false, stuckRun 2 true,
      stuckRun 4 true, stuckRun 6 true, stuckRun 8 true]).map Watchdog.issued =
      some [28800, 21600, 14400, 7200, 0] := by
  decide +kernel

/-- **Five restarts within eight hours**, where the file was unreadable once. -/
theorem forgotten_restarts :
    ¬ ∀ state, watchdogSystem.Reachable state → Capped state.issued := by
  intro capped
  obtain ⟨state, ran, issued⟩ := Option.map_eq_some_iff.mp issued_forgotten
  have daily := (capped state (.run (.initial ⟨rfl, rfl⟩) (fun _ _ _ => trivial) ran)).daily 0
  rw [issued] at daily
  revert daily
  decide +kernel

theorem issued_remembered :
    (watchdogSystem.run ⟨none, [], 0⟩ [stuckRun 0 true, stuckRun 2 true]).map Watchdog.issued =
      some [7200, 0] := by
  decide +kernel

theorem restarts_capped_sample : Capped [7200, 0] := by
  obtain ⟨state, ran, issued⟩ := Option.map_eq_some_iff.mp issued_remembered
  rw [← issued]
  refine restarts_capped_of_old_losses (.run (.initial ⟨rfl, rfl⟩) ?_ ran)
  intro run member state forgets
  have readable : run.readable = true := by
    simp only [List.mem_cons, List.not_mem_nil, or_false] at member
    rcases member with rfl | rfl <;> rfl
  cases readable.symm.trans forgets.1

/-! ## The cooldown -/

/-- The newest restart is booked, or it has cooled down, or restarts are held until it has. -/
structure Cools (ledger : Ledger) (clock : ℚ) (issued : List ℚ) : Prop where
  spaced : issued.IsChain fun later earlier => restartCooldownS ≤ later - earlier
  booked : Accounted ledger clock []
  past : ∀ last ∈ issued.head?, last ≤ clock
  newest : ∀ last ∈ issued.head?, last ∈ ledger.restarts ∨ last + restartCooldownS ≤ clock ∨
    ∃ hold ∈ ledger.restartHoldUntil, last + restartCooldownS ≤ hold

theorem Cools.later (cools : Cools ledger clock issued) (le : clock ≤ now) :
    Cools ledger now issued where
  spaced := cools.spaced
  booked := cools.booked.later le
  past last isLast := (cools.past last isLast).trans le
  newest last isLast := (cools.newest last isLast).imp_right (Or.imp_left le.trans')

theorem Cools.kept (cools : Cools prior now issued) (kept : Kept prior now state) :
    Cools state now issued := by
  have short : restartCooldownS ≤ dayS := by decide +kernel
  refine ⟨cools.spaced, cools.booked.kept kept, cools.past, fun last isLast => ?_⟩
  rcases cools.newest last isLast with isBooked | cooled | ⟨hold, isHold, le⟩
  · exact (kept.booked_or_old isBooked).imp_right fun old => .inl (by linarith)
  · exact .inr (.inl cooled)
  · exact .inr ((kept.hold_or_ended isHold).symm.imp le.trans fun held => ⟨hold, held, le⟩)

theorem Cools.apart (cools : Cools prior obs.now issued) (can : canRestart obs prior = true)
    {last : ℚ} (isLast : last ∈ issued.head?) : restartCooldownS ≤ obs.now - last := by
  rcases cools.newest last isLast with isBooked | cooled | ⟨hold, isHold, le⟩
  · exact apart_of_booked can cools.booked isBooked
  · linarith
  · linarith [le_of_hold can isHold]

theorem Cools.readState {world : Watchdog}
    (cools : Cools (world.file.getD {}) run.obs.now world.issued) :
    Cools (readState run world.file) run.obs.now world.issued := by
  rw [Gateway.readState]
  split
  case isTrue => exact cools
  case isFalse =>
    exact ⟨cools.spaced, ⟨.nil, nofun, _, .inr ⟨_, rfl, le_rfl⟩, trivial⟩, cools.past,
      fun last isLast => .inr (.inr ⟨_, rfl, by linarith [cools.past last isLast]⟩)⟩

end TreeOptions.Gateway
