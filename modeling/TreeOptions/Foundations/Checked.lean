import Mathlib.Data.List.Nodup

/-!
# Checked programs

Programs that return a value or an error, and what their success says. A sequence
succeeds when each of its steps does (`bind_eq_ok`), a check when its condition is not
met (`refuse_eq_ok`), a map when every item does (`mapM_eq_ok`), and what every step of
a fold keeps holds after the fold (`foldlM_invariant`).
-/

set_option autoImplicit false

namespace TreeOptions.Checked

universe u v w w'

variable {Error : Type w} {Value Result : Type u} {first : Except Error Value}

theorem bind_eq_ok {next : Value → Except Error Result} {result : Result} :
    (first >>= next) = .ok result ↔ ∃ value, first = .ok value ∧ next value = .ok result := by
  cases first with
  | error error =>
    constructor
    · intro failed
      cases failed
    · rintro ⟨value, failed, -⟩
      cases failed
  | ok value =>
    constructor
    · intro succeeded
      exact ⟨value, rfl, succeeded⟩
    · rintro ⟨value', same, succeeded⟩
      cases same
      exact succeeded

theorem map_eq_ok {change : Value → Result} {result : Result} :
    change <$> first = .ok result ↔ ∃ value, first = .ok value ∧ change value = result := by
  cases first with
  | error error => simp [Functor.map, Except.map]
  | ok value => simp [Functor.map, Except.map]

theorem mem_toOption {value : Value} : value ∈ first.toOption ↔ first = .ok value := by
  cases first with
  | ok other => simp [Except.toOption]
  | error error => simp [Except.toOption]

/-- Another error is no success. -/
theorem mapError_eq_ok {Error' : Type w'} {change : Error → Error'} {value : Value} :
    first.mapError change = .ok value ↔ first = .ok value := by
  cases first with
  | error error => simp [Except.mapError]
  | ok value' => simp [Except.mapError]

/-- Stop with an error where a condition is met. -/
def refuse (bad : Prop) [Decidable bad] (error : Error) : Except Error Unit :=
  if bad then .error error else .ok ⟨⟩

theorem refuse_eq_ok {bad : Prop} [Decidable bad] {error : Error} {done : Unit} :
    refuse bad error = .ok done ↔ ¬ bad := by
  rw [refuse]
  split
  case isTrue met => simp [met]
  case isFalse unmet => simp [unmet]

theorem refuse_bind_eq_ok {Result : Type} {bad : Prop} [Decidable bad] {error : Error}
    {rest : Unit → Except Error Result} {result : Result} :
    (refuse bad error >>= rest) = .ok result ↔ ¬ bad ∧ rest ⟨⟩ = .ok result := by
  rw [bind_eq_ok]
  constructor
  · rintro ⟨⟨⟩, unmet, succeeded⟩
    exact ⟨refuse_eq_ok.mp unmet, succeeded⟩
  · rintro ⟨unmet, succeeded⟩
    exact ⟨⟨⟩, refuse_eq_ok.mpr unmet, succeeded⟩

/-! ## Lists -/

variable {Item : Type v} {items : List Item} {change : Item → Except Error Value}

theorem mapM_eq_ok {values : List Value} :
    items.mapM change = .ok values ↔
      List.Forall₂ (fun item value => change item = .ok value) items values := by
  induction items generalizing values with
  | nil =>
    rw [List.mapM_nil, List.forall₂_nil_left_iff]
    constructor
    · intro same
      cases same
      rfl
    · rintro rfl
      rfl
  | cons first rest ih =>
    rw [List.mapM_cons, bind_eq_ok, List.forall₂_cons_left_iff]
    constructor
    · rintro ⟨value, changed, succeeded⟩
      obtain ⟨others, changedRest, same⟩ := bind_eq_ok.mp succeeded
      cases same
      exact ⟨value, others, changed, ih.mp changedRest, rfl⟩
    · rintro ⟨value, others, changed, changedRest, rfl⟩
      exact ⟨value, changed, bind_eq_ok.mpr ⟨others, ih.mpr changedRest, rfl⟩⟩

variable {Part : Type w'}

theorem map_eq_of_mapM {values : List Value} (changed : items.mapM change = .ok values)
    {ofValue : Value → Part} {ofItem : Item → Part}
    (same : ∀ item ∈ items, ∀ value, change item = .ok value → ofValue value = ofItem item) :
    values.map ofValue = items.map ofItem := by
  have each := mapM_eq_ok.mp changed
  clear changed
  induction each with
  | nil => rfl
  | @cons item value items values first rest ih =>
    rw [List.map_cons, List.map_cons, same item List.mem_cons_self value first,
      ih (List.forall_mem_cons.mp same).2]

theorem exists_forall₂ {relates : Item → Part → Prop}
    (each : ∀ item ∈ items, ∃ part, relates item part) :
    ∃ parts, List.Forall₂ relates items parts := by
  induction items with
  | nil => exact ⟨[], .nil⟩
  | cons first rest ih =>
    obtain ⟨part, related⟩ := each first List.mem_cons_self
    obtain ⟨parts, others⟩ := ih (List.forall_mem_cons.mp each).2
    exact ⟨part :: parts, .cons related others⟩

theorem exists_mapM (each : ∀ item ∈ items, ∃ value, change item = .ok value) :
    ∃ values, items.mapM change = .ok values := by
  obtain ⟨values, changed⟩ := exists_forall₂ each
  exact ⟨values, mapM_eq_ok.mpr changed⟩

theorem exists_left_of_forall₂ {relates : Item → Part → Prop} {parts : List Part}
    (each : List.Forall₂ relates items parts) {part : Part} (member : part ∈ parts) :
    ∃ item ∈ items, relates item part := by
  induction each with
  | nil => cases member
  | @cons item part' items parts first rest ih =>
    rcases List.mem_cons.mp member with rfl | later
    · exact ⟨item, List.mem_cons_self, first⟩
    · obtain ⟨item', inside, related⟩ := ih later
      exact ⟨item', List.mem_cons_of_mem _ inside, related⟩

theorem exists_right_of_forall₂ {relates : Item → Part → Prop} {parts : List Part}
    (each : List.Forall₂ relates items parts) {item : Item} (member : item ∈ items) :
    ∃ part ∈ parts, relates item part :=
  exists_left_of_forall₂ each.flip member

theorem exists_of_mem_mapM {values : List Value} (changed : items.mapM change = .ok values)
    {value : Value} (member : value ∈ values) : ∃ item ∈ items, change item = .ok value :=
  exists_left_of_forall₂ (mapM_eq_ok.mp changed) member

theorem forM_eq_ok {check : Item → Except Error Unit} {done : Unit} :
    items.forM check = .ok done ↔ ∀ item ∈ items, check item = .ok ⟨⟩ := by
  induction items with
  | nil =>
    constructor
    · intro _ item member
      cases member
    · intro _
      rfl
  | cons first rest ih =>
    change (check first >>= fun _ => rest.forM check) = .ok done ↔ _
    rw [List.forall_mem_cons, ← ih, bind_eq_ok]
    constructor
    · rintro ⟨⟨⟩, checked, succeeded⟩
      exact ⟨checked, succeeded⟩
    · rintro ⟨checked, succeeded⟩
      exact ⟨⟨⟩, checked, succeeded⟩

variable {State : Type u}

/-- **What every step of a fold over its items keeps holds after the fold.** -/
theorem foldlM_invariant_of_mem {step : State → Item → Except Error State}
    (holds : List Item → State → Prop) {items done : List Item} {start last : State}
    (keeps : ∀ done, ∀ item ∈ items, ∀ state next, holds done state →
      step state item = .ok next → holds (done ++ [item]) next)
    (before : holds done start) (ran : items.foldlM step start = .ok last) :
    holds (done ++ items) last := by
  induction items generalizing done start with
  | nil =>
    cases ran
    rw [List.append_nil]
    exact before
  | cons first rest ih =>
    obtain ⟨next, stepped, ran⟩ := bind_eq_ok.mp ran
    have after := ih
      (fun done item isMember => keeps done item (List.mem_cons_of_mem _ isMember))
      (keeps done first List.mem_cons_self start next before stepped) ran
    rwa [List.append_assoc, List.singleton_append] at after

variable {step : State → Item → Except Error State} {start : State}

theorem foldlM_invariant (holds : List Item → State → Prop)
    (keeps : ∀ done item state next, holds done state → step state item = .ok next →
      holds (done ++ [item]) next) {done : List Item} {last : State} (before : holds done start)
    (ran : items.foldlM step start = .ok last) : holds (done ++ items) last :=
  foldlM_invariant_of_mem holds (fun done item _ => keeps done item) before ran

theorem foldlM_keeps (holds : State → Prop) {last : State}
    (keeps : ∀ item ∈ items, ∀ state next, holds state → step state item = .ok next → holds next)
    (before : holds start) (ran : items.foldlM step start = .ok last) : holds last :=
  @foldlM_invariant_of_mem _ _ _ step (fun _ => holds) items [] start last (fun _ => keeps) before
    ran

theorem nodup_of_foldlM {Key : Type u} {step : List Key → Item → Except Error (List Key)}
    {key : Item → Key} (each : ∀ seen item keys, step seen item = .ok keys → key item ∉ seen ∧
      keys = seen ++ [key item]) {keys : List Key} (walked : items.foldlM step [] = .ok keys) :
    (items.map key).Nodup := by
  have started : ([] : List Key) = [].map key ∧ ([].map key).Nodup := ⟨rfl, List.nodup_nil⟩
  refine (foldlM_invariant (fun done seen => seen = done.map key ∧ (done.map key).Nodup)
    ?_ started walked).2
  rintro done item seen next ⟨rfl, unique⟩ stepped
  obtain ⟨fresh, rfl⟩ := each _ _ _ stepped
  rw [List.map_append, List.map_singleton]
  refine ⟨rfl, List.nodup_append.mpr ⟨unique, List.nodup_singleton _, ?_⟩⟩
  rintro a isMember b isNew rfl
  rw [List.mem_singleton.mp isNew] at isMember
  exact fresh isMember

/-- **Two folds over the same items end alike** when they start alike and each step leaves
them so. -/
theorem foldlM_alike {State' : Type u} {step' : State' → Item → Except Error State'}
    (alike : State → State' → Prop) {last : State} {start' last' : State'}
    (kept : ∀ item ∈ items, ∀ state state' next next', alike state state' →
      step state item = .ok next → step' state' item = .ok next' → alike next next')
    (before : alike start start') (ran : items.foldlM step start = .ok last)
    (ran' : items.foldlM step' start' = .ok last') : alike last last' := by
  induction items generalizing start start' with
  | nil =>
    cases ran
    cases ran'
    exact before
  | cons first rest ih =>
    obtain ⟨next, stepped, ran⟩ := bind_eq_ok.mp ran
    obtain ⟨next', stepped', ran'⟩ := bind_eq_ok.mp ran'
    exact ih (List.forall_mem_cons.mp kept).2
      (kept first List.mem_cons_self _ _ _ _ before stepped stepped') ran ran'

/-- **A fold succeeds when every step does from what the steps before it keep.** -/
theorem exists_foldlM (holds : List Item → State → Prop) {all : List Item}
    (steps : ∀ done item rest state, done ++ item :: rest = all → holds done state →
      ∃ next, step state item = .ok next ∧ holds (done ++ [item]) next) {done : List Item}
    (split : done ++ items = all) (before : holds done start) :
    ∃ last, items.foldlM step start = .ok last ∧ holds all last := by
  induction items generalizing done start with
  | nil =>
    rw [List.append_nil] at split
    exact ⟨start, rfl, split ▸ before⟩
  | cons first rest ih =>
    obtain ⟨next, stepped, after⟩ := steps done first rest start split before
    obtain ⟨last, ran, holds'⟩ := ih (by rw [List.append_assoc]; exact split) after
    refine ⟨last, ?_, holds'⟩
    rw [List.foldlM_cons]
    exact bind_eq_ok.mpr ⟨next, stepped, ran⟩

end TreeOptions.Checked
