import Mathlib.Algebra.Group.Submonoid.BigOperators
import Mathlib.Algebra.Order.BigOperators.Group.List
import TreeOptions.Workspace.Deployment

/-!
# What the sleeves have reserved

The reservations of a sleeve never sum to more than its capital, and all name one account
(`Funded`). Every section keeps this: a proposal is checked against the sum it adds to, an
account is bound only where nothing is reserved, and no other section raises a sum.

The sums are taken with the digits of a decimal context. They are sums of whole cents, far below
where these digits run out, so they are exact.
-/

set_option autoImplicit false

namespace TreeOptions.Workspace

open Checked Decimal

/-! ## Sums -/

/-- What a file of a deployment reserves of a sleeve. -/
def amountOf (sleeveId : String) : Option Deployment → ℚ
  | none => 0
  | some record => if record.reserves sleeveId then record.request.maxGrossNotional else 0

/-- What the deployments reserve of a sleeve. -/
def Files.reservedOf (files : Files) (sleeveId : String) : ℚ :=
  files.stems.foldr (fun stem total => amountOf sleeveId (files.deployments.get stem) + total) 0

section Sums

variable {files : Files} {sleeveId : String} {record : Deployment}

theorem amountOf_nonneg (found : Option Deployment) : 0 ≤ amountOf sleeveId found := by
  cases found with
  | none => exact le_rfl
  | some record =>
    rw [amountOf]
    split
    · exact record.request.notional_pos.le
    · exact le_rfl

theorem amountOf_reserves (reserves : record.reserves sleeveId = true) :
    amountOf sleeveId (some record) = record.request.maxGrossNotional := by
  rw [amountOf, if_pos reserves]

theorem amountOf_free (free : record.reserves sleeveId = false) :
    amountOf sleeveId (some record) = 0 := by
  rw [amountOf, if_neg (by rw [free]; exact Bool.false_ne_true)]

theorem sum_filter_isSome {keys : List String} {get : String → Option Deployment} :
    ((keys.filter fun key => (get key).isSome).map fun key => amountOf sleeveId (get key)).sum =
      (keys.map fun key => amountOf sleeveId (get key)).sum := by
  induction keys with
  | nil => rfl
  | cons key rest ih =>
    rw [List.filter_cons]
    split
    case isTrue => simp only [List.map_cons, List.sum_cons, ih]
    case isFalse absent =>
        rw [Option.not_isSome_iff_eq_none] at absent
        rw [ih, List.map_cons, List.sum_cons, absent, amountOf, zero_add]

theorem reservedOf_eq_sum :
    files.reservedOf sleeveId = files.deployments.sum (amountOf sleeveId) := by
  have folded : ∀ stems : List String,
      stems.foldr (fun stem total => amountOf sleeveId (files.deployments.get stem) + total) 0 =
        (stems.map fun stem => amountOf sleeveId (files.deployments.get stem)).sum := by
    intro stems
    induction stems with
    | nil => rfl
    | cons stem rest ih => rw [List.foldr_cons, ih, List.map_cons, List.sum_cons]
  have perm : files.stems.Perm files.deployments.names := sortedBy_perm _ _
  rw [Files.reservedOf, folded, (perm.map _).sum_eq, Directory.names, sum_filter_isSome,
    DefaultDict.sum]

/-- **A write changes a sum by what the record reserves now and reserved before.** -/
theorem reservedOf_put : (files.put record).reservedOf sleeveId =
    files.reservedOf sleeveId - amountOf sleeveId (files.deployments.get record.deploymentId) +
      amountOf sleeveId (some record) := by
  rw [reservedOf_eq_sum, reservedOf_eq_sum, Files.put, Directory.write]
  exact DefaultDict.sum_set _ _ _ rfl

theorem get_put (deploymentId : String) :
    (files.put record).deployments.get deploymentId =
      if deploymentId = record.deploymentId then some record
      else files.deployments.get deploymentId :=
  Directory.get_write _ _ _ _

theorem amountOf_le_reservedOf (deploymentId : String) :
    amountOf sleeveId (files.deployments.get deploymentId) ≤ files.reservedOf sleeveId := by
  rw [reservedOf_eq_sum, DefaultDict.sum]
  by_cases known : deploymentId ∈ files.deployments.keys
  · apply List.single_le_sum
    · intro amount member
      obtain ⟨key, _, rfl⟩ := List.mem_map.mp member
      exact amountOf_nonneg _
    · exact List.mem_map_of_mem (f := fun key =>
        amountOf sleeveId (files.deployments.get key)) known
  · rw [files.deployments.absent deploymentId known]
    apply List.sum_nonneg
    intro amount member
    obtain ⟨key, _, rfl⟩ := List.mem_map.mp member
    exact amountOf_nonneg _

theorem amountOf_cents (found : Option Deployment) : amountOf sleeveId found ∈ cents := by
  cases found with
  | none => exact zero_mem cents
  | some record =>
    rw [amountOf]
    split
    · exact record.request.notional_cents
    · exact zero_mem cents

theorem reservedOf_nonneg : 0 ≤ files.reservedOf sleeveId := by
  rw [reservedOf_eq_sum]
  apply List.sum_nonneg
  intro amount member
  obtain ⟨key, _, rfl⟩ := List.mem_map.mp member
  exact amountOf_nonneg _

theorem reservedOf_cents : files.reservedOf sleeveId ∈ cents := by
  rw [reservedOf_eq_sum]
  apply list_sum_mem
  intro amount member
  obtain ⟨key, _, rfl⟩ := List.mem_map.mp member
  exact amountOf_cents _

theorem free_of_reservedOf (nothing : files.reservedOf sleeveId = 0) {deploymentId : String}
    (found : files.deployments.get deploymentId = some record) :
    record.reserves sleeveId = false := by
  rw [Bool.eq_false_iff]
  intro reserves
  have le : amountOf sleeveId (files.deployments.get deploymentId) ≤ _ :=
    amountOf_le_reservedOf deploymentId
  rw [found, amountOf_reserves reserves, nothing] at le
  exact absurd record.request.notional_pos (not_lt.mpr le)

theorem foldl_add_exact {records : List Deployment} {start : ℚ} (whole : start ∈ cents)
    (nonneg : 0 ≤ start)
    (small : start + (records.map fun record => record.request.maxGrossNotional).sum < 10 ^ 26) :
    records.foldl (fun total record => add total record.request.maxGrossNotional) start =
      start + (records.map fun record => record.request.maxGrossNotional).sum := by
  induction records generalizing start with
  | nil => simp
  | cons record rest ih =>
    rw [List.map_cons, List.sum_cons] at small ⊢
    have later : 0 ≤ (rest.map fun record => record.request.maxGrossNotional).sum := by
      apply List.sum_nonneg
      intro amount member
      obtain ⟨other, _, rfl⟩ := List.mem_map.mp member
      exact other.request.notional_pos.le
    have positive := record.request.notional_pos
    have sum : start + record.request.maxGrossNotional ∈ cents :=
      add_mem whole record.request.notional_cents
    have exact' : add start record.request.maxGrossNotional =
        start + record.request.maxGrossNotional := by
      apply roundContext_of_cents sum
      rw [abs_of_nonneg (by linarith)]
      linarith
    rw [List.foldl_cons, exact', ih sum (by linarith) (by linarith)]
    ring

end Sums

/-! ## What a view tells -/

section Views

variable {hashes : Hashes} {files : Files} {plan : AllocationPlan} {record : Deployment}
  {deploymentId : String}

theorem read_eq_ok (read : files.read hashes deploymentId = .ok record) :
    files.deployments.get deploymentId = some record := by
  obtain ⟨_, _, looked⟩ := bind_eq_ok.mp read
  split at looked
  case h_1 => cases looked
  case h_2 other found =>
    obtain ⟨_, _, same⟩ := bind_eq_ok.mp looked
    cases same
    exact found

variable {records : List Deployment}

theorem records_of_mapM (read : files.stems.mapM (files.read hashes) = .ok records) :
    files.stems.map files.deployments.get = records.map some := by
  have each := mapM_eq_ok.mp read
  clear read
  generalize files.stems = stems at each
  induction each with
  | nil => rfl
  | cons first rest ih => rw [List.map_cons, List.map_cons, read_eq_ok first, ih]

theorem mem_stems (found : files.deployments.get deploymentId = some record) :
    deploymentId ∈ files.stems := by
  rw [Files.stems, mem_sortedBy, Directory.mem_names, found]
  rfl

theorem mem_of_records (read : files.stems.map files.deployments.get = records.map some)
    (found : files.deployments.get deploymentId = some record) : record ∈ records := by
  have member : some record ∈ files.stems.map files.deployments.get :=
    List.mem_map.mpr ⟨deploymentId, mem_stems found, found⟩
  rw [read] at member
  obtain ⟨other, inside, same⟩ := List.mem_map.mp member
  cases same
  exact inside

theorem reservedOf_eq_records {sleeveId : String}
    (read : files.stems.map files.deployments.get = records.map some) :
    files.reservedOf sleeveId =
      ((records.filter fun record => record.reserves sleeveId).map
        fun record => record.request.maxGrossNotional).sum := by
  have folded : ∀ stems : List String, ∀ records : List Deployment,
      stems.map files.deployments.get = records.map some →
      stems.foldr (fun stem total => amountOf sleeveId (files.deployments.get stem) + total) 0 =
        ((records.filter fun record => record.reserves sleeveId).map
          fun record => record.request.maxGrossNotional).sum := by
    intro stems
    induction stems with
    | nil =>
      intro records same
      rw [List.map_nil, eq_comm, List.map_eq_nil_iff] at same
      rw [same]
      rfl
    | cons stem rest ih =>
      intro records same
      cases records with
      | nil => cases same
      | cons record records =>
        rw [List.map_cons, List.map_cons, List.cons.injEq] at same
        rw [List.foldr_cons, ih records same.2, same.1, List.filter_cons]
        split
        case isTrue reserves =>
          rw [amountOf_reserves reserves, List.map_cons, List.sum_cons]
        case isFalse free => rw [amountOf_free (Bool.not_eq_true _ ▸ free), zero_add]
  exact folded _ _ read

theorem head?_of_dedup {aliases : List String} (few : ¬ 1 < aliases.dedup.length) {text : String}
    (member : text ∈ aliases) : aliases.dedup.head? = some text := by
  have inside := List.mem_dedup.mpr member
  cases distinct : aliases.dedup with
  | nil =>
    rw [distinct] at inside
    cases inside
  | cons first rest =>
    rw [distinct] at inside few
    cases rest with
    | nil => rw [List.mem_singleton.mp inside, List.head?_cons]
    | cons second rest => exact absurd (by simp) few

theorem sleeveView_eq_ok {sleeve : Sleeve} {shown : SleeveView}
    (viewed : sleeveView plan records sleeve = .ok shown)
    (read : files.stems.map files.deployments.get = records.map some)
    (small : files.reservedOf sleeve.sleeveId < 10 ^ 26) :
    shown.sleeve = sleeve ∧ shown.reservedUsd = files.reservedOf sleeve.sleeveId ∧
      (∀ bound ∈ plan.aliasOf sleeve, shown.accountAlias = some bound) ∧
      ∀ deploymentId record, files.deployments.get deploymentId = some record →
        record.reserves sleeve.sleeveId = true →
        shown.accountAlias = some record.request.accountAlias := by
  simp only [sleeveView, refuse_bind_eq_ok] at viewed
  obtain ⟨few, _, made⟩ := viewed
  cases made
  rw [reservedOf_eq_records read] at small ⊢
  refine ⟨rfl, ?_, ?_, ?_⟩
  · rw [foldl_add_exact (zero_mem cents) le_rfl (by rwa [zero_add]), zero_add]
  · intro bound isBound
    exact head?_of_dedup few (List.mem_append_right _ (Option.mem_toList.mpr isBound))
  · intro deploymentId record found reserves
    apply head?_of_dedup few
    apply List.mem_append_left
    exact List.mem_map.mpr
      ⟨record, List.mem_filter.mpr ⟨mem_of_records read found, reserves⟩, rfl⟩

theorem allocationView_eq_ok {view : AllocationView}
    (viewed : allocationView hashes files plan = .ok view)
    (small : ∀ sleeve ∈ plan.sleeves, files.reservedOf sleeve.sleeveId < 10 ^ 26) :
    view.sleeves.map SleeveView.sleeve = plan.sleeves ∧ ∀ shown ∈ view.sleeves,
      shown.reservedUsd = files.reservedOf shown.sleeve.sleeveId ∧
      (∀ bound ∈ plan.aliasOf shown.sleeve, shown.accountAlias = some bound) ∧
      ∀ deploymentId record, files.deployments.get deploymentId = some record →
        record.reserves shown.sleeve.sleeveId = true →
        shown.accountAlias = some record.request.accountAlias := by
  simp only [allocationView, refuse_bind_eq_ok] at viewed
  obtain ⟨_, _, viewed⟩ := viewed
  obtain ⟨records, read, viewed⟩ := bind_eq_ok.mp viewed
  obtain ⟨sleeves, mapped, viewed⟩ := bind_eq_ok.mp viewed
  obtain ⟨_, made⟩ := refuse_bind_eq_ok.mp viewed
  cases made
  have told : ∀ sleeve ∈ plan.sleeves, ∀ shown, sleeveView plan records sleeve = .ok shown → _ :=
    fun sleeve member shown viewed =>
      sleeveView_eq_ok viewed (records_of_mapM read) (small sleeve member)
  constructor
  · have same : sleeves.map SleeveView.sleeve = plan.sleeves.map id :=
      map_eq_of_mapM mapped fun sleeve member shown viewed => (told sleeve member shown viewed).1
    rwa [List.map_id] at same
  · intro shown member
    obtain ⟨sleeve, inPlan, viewed⟩ := exists_of_mem_mapM mapped member
    obtain ⟨same, rest⟩ := told sleeve inPlan shown viewed
    rw [same]
    exact rest

end Views

/-! ## The reservations are funded -/

/-- The reservations of a sleeve sum to at most its capital, and all name one account, which is
that of the plan or of the binding if there is one. What is reserved is reserved of a sleeve of
the plan. -/
structure Funded (files : Files) : Prop where
  planned : ∀ deploymentId record sleeveId, files.deployments.get deploymentId = some record →
    record.reserves sleeveId = true →
    ∃ plan, files.plan = some plan ∧ ∃ sleeve ∈ plan.sleeves, sleeve.sleeveId = sleeveId
  sleeves : ∀ plan, files.plan = some plan → plan.sleeves = planSleeves plan.request.accountAlias
  sums : ∀ plan, files.plan = some plan → ∀ sleeve ∈ plan.sleeves,
    files.reservedOf sleeve.sleeveId ≤ sleeve.capitalUsd
  account : ∀ plan, files.plan = some plan → ∀ sleeve ∈ plan.sleeves, ∃ text,
    (∀ bound ∈ plan.aliasOf sleeve, bound = text) ∧
    ∀ deploymentId record, files.deployments.get deploymentId = some record →
      record.reserves sleeve.sleeveId = true → record.request.accountAlias = text

namespace Funded

variable {hashes : Hashes} {files next : Files}

theorem initially : Funded Files.empty := by
  refine ⟨?_, ?_, ?_, ?_⟩
  · intro deploymentId record sleeveId found
    cases found
  all_goals
    intro plan found
    cases found

theorem capital_le {accountAlias : Option String} {sleeve : Sleeve}
    (member : sleeve ∈ planSleeves accountAlias) :
    5000 ≤ sleeve.capitalUsd ∧ sleeve.capitalUsd ≤ 50000 := by
  obtain ⟨index, _, rfl⟩ := List.mem_map.mp member
  rw [sleeveAt]
  dsimp only
  split <;> norm_num

theorem small (funded : Funded files) {plan : AllocationPlan} (planned : files.plan = some plan)
    (sleeve : Sleeve) (member : sleeve ∈ plan.sleeves) :
    files.reservedOf sleeve.sleeveId < 10 ^ 26 := by
  have le := funded.sums plan planned sleeve member
  rw [funded.sleeves plan planned] at member
  have bound := (capital_le member).2
  linarith

/-- A write of a halt does not count. -/
theorem of_same (funded : Funded files) (plan : next.plan = files.plan)
    (deployments : next.deployments = files.deployments) : Funded next := by
  have sums : ∀ sleeveId, next.reservedOf sleeveId = files.reservedOf sleeveId := by
    intro sleeveId
    rw [reservedOf_eq_sum, reservedOf_eq_sum, deployments]
  refine ⟨?_, ?_, ?_, ?_⟩
  · rw [plan, deployments]
    exact funded.planned
  · rw [plan]
    exact funded.sleeves
  · simp only [plan, sums]
    exact funded.sums
  · rw [plan, deployments]
    exact funded.account

/-- **A record that is written again reserves no more than it did.** -/
theorem of_rewritten (funded : Funded files) {record changed : Deployment}
    (found : files.deployments.get record.deploymentId = some record)
    (sameId : changed.deploymentId = record.deploymentId)
    (request : changed.request = record.request)
    (released : changed.reservationReleased = false → record.reservationReleased = false) :
    Funded (files.put changed) := by
  have reserved : ∀ sleeveId, changed.reserves sleeveId = true →
      record.reserves sleeveId = true := by
    intro sleeveId reserves
    simp only [Deployment.reserves, Bool.and_eq_true, Bool.not_eq_true', request] at reserves ⊢
    exact ⟨reserves.1, released reserves.2⟩
  have before : ∀ deploymentId other sleeveId,
      (files.put changed).deployments.get deploymentId = some other →
      other.reserves sleeveId = true → ∃ held, files.deployments.get deploymentId = some held ∧
        held.reserves sleeveId = true ∧
        held.request.accountAlias = other.request.accountAlias := by
    intro deploymentId other sleeveId found' reserves
    rw [get_put] at found'
    split at found'
    case isTrue same =>
      cases found'
      exact ⟨record, by rw [same, sameId, found], reserved sleeveId reserves, by rw [request]⟩
    case isFalse => exact ⟨other, found', reserves, rfl⟩
  refine ⟨?_, funded.sleeves, ?_, ?_⟩
  · intro deploymentId other sleeveId found' reserves
    obtain ⟨held, found, reserves', _⟩ := before deploymentId other sleeveId found' reserves
    exact funded.planned deploymentId held sleeveId found reserves'
  · intro plan planned sleeve member
    have le := funded.sums plan planned sleeve member
    have less : amountOf sleeve.sleeveId (some changed) ≤
        amountOf sleeve.sleeveId (some record) := by
      cases reserves : changed.reserves sleeve.sleeveId with
      | false =>
        rw [amountOf_free reserves]
        exact amountOf_nonneg _
      | true =>
        rw [amountOf_reserves reserves, amountOf_reserves (reserved _ reserves), request]
    rw [reservedOf_put, sameId, found]
    linarith
  · intro plan planned sleeve member
    obtain ⟨text, bound, named⟩ := funded.account plan planned sleeve member
    refine ⟨text, bound, ?_⟩
    intro deploymentId other found' reserves
    obtain ⟨held, found, reserves', same⟩ := before deploymentId other _ found' reserves
    rw [← same]
    exact named deploymentId held found reserves'

/-! ### Plans -/

theorem of_created (funded : Funded files) {idempotencyKey : String}
    {accountAlias : Option String}
    (created : createAllocation hashes files idempotencyKey accountAlias = .ok next) :
    Funded next := by
  simp only [createAllocation, refuse_bind_eq_ok] at created
  obtain ⟨_, _, created⟩ := created
  split at created
  case h_1 =>
    obtain ⟨_, same⟩ := refuse_bind_eq_ok.mp created
    cases same
    exact funded
  case h_2 planned =>
    cases created
    have free : ∀ deploymentId record sleeveId,
        files.deployments.get deploymentId = some record → record.reserves sleeveId = false := by
      intro deploymentId record sleeveId found
      rw [Bool.eq_false_iff]
      intro reserves
      obtain ⟨plan, exists_, _⟩ := funded.planned deploymentId record sleeveId found reserves
      rw [planned] at exists_
      cases exists_
    have nothing : ∀ sleeveId, files.deployments.sum (amountOf sleeveId) = 0 := by
      intro sleeveId
      apply DefaultDict.sum_eq_zero
      intro deploymentId
      cases found : files.deployments.get deploymentId with
      | none => rfl
      | some record => exact amountOf_free (free deploymentId record sleeveId found)
    refine ⟨?_, ?_, ?_, ?_⟩
    · intro deploymentId record sleeveId found reserves
      exact absurd reserves (by rw [free deploymentId record sleeveId found]; simp)
    · intro plan made
      cases made
      rfl
    · intro plan made sleeve member
      cases made
      rw [reservedOf_eq_sum]
      refine (nothing sleeve.sleeveId).le.trans ?_
      linarith [(capital_le member).1]
    · intro plan made sleeve member
      cases made
      refine ⟨sleeve.accountAlias.getD "", ?_, ?_⟩
      · intro bound isBound
        have unbound : (DefaultDict.empty : Directory String String).get sleeve.sleeveId = none :=
          rfl
        rw [AllocationPlan.aliasOf, unbound, Option.none_or] at isBound
        rw [Option.mem_def.mp isBound, Option.getD_some]
      · intro deploymentId record found reserves
        exact absurd reserves (by rw [free deploymentId record _ found]; simp)

theorem of_filter_eq_singleton {shown : List SleeveView} {sleeveId : String} {only : SleeveView}
    (single : (shown.filter fun view => view.sleeve.sleeveId = sleeveId) = [only]) :
    only ∈ shown ∧ only.sleeve.sleeveId = sleeveId :=
  (List.mem_filter.mp (single ▸ List.mem_singleton_self only)).imp_right of_decide_eq_true

theorem of_bound (funded : Funded files) {planId sleeveId accountAlias : String}
    (bound : bindSleeve hashes files planId sleeveId accountAlias = .ok next) : Funded next := by
  obtain ⟨_, bound⟩ := refuse_bind_eq_ok.mp bound
  split at bound
  case h_1 => cases bound
  case h_2 plan planned =>
    obtain ⟨view, viewed, bound⟩ := bind_eq_ok.mp bound
    obtain ⟨_, bound⟩ := refuse_bind_eq_ok.mp bound
    obtain ⟨shows, told⟩ := allocationView_eq_ok viewed (funded.small planned)
    split at bound
    case h_1 selected only =>
      split at bound
      case isTrue =>
        cases bound
        exact funded
      case isFalse =>
        obtain ⟨unreserved, made⟩ := refuse_bind_eq_ok.mp bound
        cases made
        have chosen := of_filter_eq_singleton only
        have nothing : files.reservedOf sleeveId = 0 := by
          rw [← chosen.2, ← (told selected chosen.1).1]
          exact not_not.mp unreserved
        refine ⟨?_, ?_, ?_, ?_⟩
        · intro deploymentId record other found reserves
          obtain ⟨held, isPlan, inside⟩ := funded.planned deploymentId record other found reserves
          cases planned.symm.trans isPlan
          exact ⟨_, rfl, inside⟩
        · intro next made
          cases made
          exact funded.sleeves plan planned
        · intro next made sleeve member
          cases made
          exact funded.sums plan planned sleeve member
        · intro next made sleeve member
          cases made
          by_cases same : sleeve.sleeveId = sleeveId
          · refine ⟨accountAlias, ?_, ?_⟩
            · intro text isText
              rw [AllocationPlan.aliasOf, same, Directory.get_write_self, Option.some_or]
                at isText
              exact (Option.some.inj isText).symm
            · intro deploymentId record found reserves
              rw [same] at reserves
              exact absurd reserves (by rw [free_of_reservedOf nothing found]; simp)
          · obtain ⟨text, named, rest⟩ := funded.account plan planned sleeve member
            refine ⟨text, ?_, rest⟩
            intro other isText
            rw [AllocationPlan.aliasOf, Directory.get_write, if_neg same] at isText
            exact named other isText
    case h_2 => cases bound

/-! ### Proposals -/

theorem checkSleeve_eq_ok (funded : Funded files) {request : DeploymentRequest} {sleeveId : String}
    (named : request.sleeveId = some sleeveId)
    (checked : checkSleeve hashes files request = .ok ⟨⟩) :
    ∃ plan, files.plan = some plan ∧ (∃ sleeve ∈ plan.sleeves, sleeve.sleeveId = sleeveId) ∧
      ∀ sleeve ∈ plan.sleeves, sleeve.sleeveId = sleeveId →
        files.reservedOf sleeveId + request.maxGrossNotional ≤ sleeve.capitalUsd ∧
        (∀ bound ∈ plan.aliasOf sleeve, bound = request.accountAlias) ∧
        ∀ deploymentId record, files.deployments.get deploymentId = some record →
          record.reserves sleeveId = true → record.request.accountAlias = request.accountAlias := by
  rw [checkSleeve, refuse_bind_eq_ok, named] at checked
  obtain ⟨plans, listed, checked⟩ := bind_eq_ok.mp checked.2
  cases planned : files.plan with
  | none =>
    rw [allocations, planned] at listed
    cases listed
    cases checked
  | some plan =>
    rw [allocations, planned] at listed
    obtain ⟨view, viewed, listed⟩ := bind_eq_ok.mp listed
    cases listed
    obtain ⟨shows, told⟩ := allocationView_eq_ok viewed (funded.small planned)
    rw [List.flatMap_singleton] at checked
    split at checked
    case h_2 => cases checked
    case h_1 shown only =>
      simp only [refuse_bind_eq_ok, refuse_eq_ok] at checked
      obtain ⟨account, intended, fits⟩ := checked
      have single : ∀ other ∈ view.sleeves, other.sleeve.sleeveId = sleeveId → other = shown := by
        intro other member same
        have inside : other ∈ view.sleeves.filter fun shown => shown.sleeve.sleeveId = sleeveId :=
          List.mem_filter.mpr ⟨member, decide_eq_true same⟩
        rw [only] at inside
        exact List.mem_singleton.mp inside
      have chosen := of_filter_eq_singleton only
      have inPlan : shown.sleeve ∈ plan.sleeves := by
        rw [← shows]
        exact List.mem_map_of_mem chosen.1
      obtain ⟨reserved, bound, accounts⟩ := told shown chosen.1
      have owner : ∀ text, shown.accountAlias = some text → text = request.accountAlias := by
        intro text isText
        by_contra differs
        exact account ⟨text, isText, differs⟩
      refine ⟨plan, rfl, ⟨shown.sleeve, inPlan, chosen.2⟩, ?_⟩
      intro sleeve member same
      have shownToo := member
      rw [← shows] at shownToo
      obtain ⟨other, inView, rfl⟩ := List.mem_map.mp shownToo
      obtain rfl := single other inView same
      rw [chosen.2] at reserved accounts
      refine ⟨?_, ?_, ?_⟩
      · -- the two amounts are under the capital, so their sum is exact
        have exact' : add request.maxGrossNotional other.reservedUsd =
            request.maxGrossNotional + other.reservedUsd := by
          apply roundContext_of_cents
          · rw [reserved]
            exact add_mem request.notional_cents reservedOf_cents
          · have below := funded.sums plan planned other.sleeve member
            have capital := member
            rw [funded.sleeves plan planned] at capital
            have bound := (capital_le capital).2
            have nonneg : 0 ≤ files.reservedOf sleeveId := reservedOf_nonneg
            have positive := request.notional_pos
            have most := request.capital_bounds
            rw [same] at below
            rw [reserved, abs_of_nonneg (by linarith)]
            linarith
        rw [exact'] at fits
        rw [← reserved]
        linarith
      · intro text isText
        exact owner text (bound text isText)
      · intro deploymentId record found reserves
        exact owner _ (accounts deploymentId record found reserves)

/-- **What a proposal reserves fits into its sleeve.** -/
theorem of_checked (funded : Funded files) {record : Deployment}
    (fresh : files.deployments.get record.deploymentId = none)
    (checked : checkSleeve hashes files record.request = .ok ⟨⟩) : Funded (files.put record) := by
  have named : ∀ sleeveId, record.reserves sleeveId = true →
      record.request.sleeveId = some sleeveId := by
    intro sleeveId reserves
    rw [Deployment.reserves, Bool.and_eq_true] at reserves
    exact of_decide_eq_true reserves.1
  refine ⟨?_, funded.sleeves, ?_, ?_⟩
  · intro deploymentId other sleeveId found reserves
    rw [get_put] at found
    split at found
    case isTrue =>
      cases found
      obtain ⟨plan, planned, member, _⟩ :=
        funded.checkSleeve_eq_ok (named sleeveId reserves) checked
      exact ⟨plan, planned, member⟩
    case isFalse => exact funded.planned deploymentId other sleeveId found reserves
  · intro plan planned sleeve member
    rw [reservedOf_put, fresh]
    have nothing : amountOf sleeve.sleeveId none = 0 := rfl
    rw [nothing, sub_zero]
    cases reserves : record.reserves sleeve.sleeveId with
    | false =>
      rw [amountOf_free reserves, add_zero]
      exact funded.sums plan planned sleeve member
    | true =>
      obtain ⟨plan', planned', _, fits⟩ :=
        funded.checkSleeve_eq_ok (named sleeve.sleeveId reserves) checked
      cases planned.symm.trans planned'
      rw [amountOf_reserves reserves]
      exact (fits sleeve member rfl).1
  · intro plan planned sleeve member
    cases reserves : record.reserves sleeve.sleeveId with
    | false =>
      obtain ⟨text, bound, named⟩ := funded.account plan planned sleeve member
      refine ⟨text, bound, ?_⟩
      intro deploymentId other found held
      rw [get_put] at found
      split at found
      case isTrue =>
        cases found
        rw [reserves] at held
        cases held
      case isFalse => exact named deploymentId other found held
    | true =>
      obtain ⟨plan', planned', _, fits⟩ :=
        funded.checkSleeve_eq_ok (named sleeve.sleeveId reserves) checked
      cases planned.symm.trans planned'
      obtain ⟨_, bound, accounts⟩ := fits sleeve member rfl
      refine ⟨record.request.accountAlias, bound, ?_⟩
      intro deploymentId other found held
      rw [get_put] at found
      split at found
      case isTrue =>
        cases found
        rfl
      case isFalse => exact accounts deploymentId other found held

theorem of_proposed (funded : Funded files) {request : DeploymentRequest} {now : ℤ}
    (proposed : propose hashes files request now = .ok next) : Funded next := by
  obtain ⟨_, proposed⟩ := refuse_bind_eq_ok.mp proposed
  cases found : files.deployments.get (hashes.key request.idempotencyKey) with
  | some record =>
    rw [found] at proposed
    obtain ⟨_, _, proposed⟩ := bind_eq_ok.mp proposed
    obtain ⟨_, same⟩ := refuse_bind_eq_ok.mp proposed
    cases same
    exact funded
  | none =>
    rw [found] at proposed
    obtain ⟨⟨⟩, checked, made⟩ := bind_eq_ok.mp proposed
    cases made
    exact funded.of_checked found checked

end Funded

end TreeOptions.Workspace
