import TreeOptions.Outcomes.Engine

/-!
# Pairs of prints

The legs are synced by walks that move on one print at a time. The print that is left behind is
farther still from the later prints of the other leg, so that no pair is missed
(`leads_syncedPair`): an entry is at the first pair in its window (`leads_entry`), and a mark at
the last pair of fresh prints (`leads_mark`).
-/

set_option autoImplicit false

namespace TreeOptions.Outcomes

/-! ## Synced pairs -/

/-- Two usable prints that are within a time of each other. -/
@[mk_iff]
structure Synced (usable : Print → Prop) (sync : ℤ) (longs shorts : List Print)
    (pair : Print × Print) : Prop where
  long : pair.1 ∈ longs ∧ usable pair.1
  short : pair.2 ∈ shorts ∧ usable pair.2
  near : |pair.1.stamp - pair.2.stamp| ≤ sync

/-- What a search finds is the first pair in both legs, and nothing where there is no pair. -/
def Leads (key : Print → ℤ) (synced : Print × Print → Prop) : Option (Print × Print) → Prop
  | none => ∀ pair, ¬ synced pair
  | some found => synced found ∧ ∀ pair, synced pair →
      key found.1 ≤ key pair.1 ∧ key found.2 ≤ key pair.2

section Walk

variable {key : Print → ℤ} {usable : Print → Bool} {behind : Print → Print → Bool} {sync : ℤ}

/-- What a search finds is determined by the pairs, as the keys tell prints apart. -/
theorem Leads.unique {synced : Print × Print → Prop} {first second : Option (Print × Print)}
    (apart : ∀ pair other, synced pair → synced other → key pair.1 = key other.1 →
      key pair.2 = key other.2 → pair = other)
    (leads : Leads key synced first) (leads' : Leads key synced second) : first = second := by
  cases first with
  | none =>
    cases second with
    | none => rfl
    | some pair => exact absurd leads'.1 (leads pair)
  | some pair =>
    cases second with
    | none => exact absurd leads.1 (leads' pair)
    | some other =>
      have before := leads.2 other leads'.1
      have after := leads'.2 pair leads.1
      rw [apart pair other leads.1 leads'.1 (before.1.antisymm after.1) (before.2.antisymm after.2)]

theorem key_head_le {print : Print} {prints : List Print}
    (sorted : (print :: prints).Pairwise fun first second => key first < key second)
    {other : Print} (member : other ∈ print :: prints) : key print ≤ key other := by
  rcases List.mem_cons.mp member with same | later
  · rw [same]
  · exact ((List.pairwise_cons.mp sorted).1 _ later).le

/-- **Moving on the print that is behind misses no pair.** The key of a print grows along its leg,
and the induction is that of the walk. -/
theorem leads_syncedPair {longs shorts : List Print}
    (distance : ∀ first second, |key first - key second| = |first.stamp - second.stamp|)
    (orders : ∀ long short, behind long short ↔ key long < key short)
    (closed : ∀ first ∈ longs ++ shorts, ∀ second, key first ≤ key second →
      usable second → usable first)
    (sorted : longs.Pairwise fun first second => key first < key second)
    (sorted' : shorts.Pairwise fun first second => key first < key second) :
    Leads key (Synced (fun print => usable print) sync longs shorts)
      (syncedPair usable behind sync longs shorts) := by
  have apart : ∀ {long short : Print}, |long.stamp - short.stamp| ≤ sync →
      key long - key short ≤ sync ∧ key short - key long ≤ sync := by
    intro long short near
    have bounds := abs_le.mp ((distance long short).trans_le near)
    omega
  fun_induction syncedPair usable behind sync longs shorts with
  | case1 long longs short shorts unusable =>
    intro pair synced
    have usableLong := closed long (by simp) _ (key_head_le sorted synced.long.1) synced.long.2
    have usableShort := closed short (by simp) _ (key_head_le sorted' synced.short.1) synced.short.2
    simp [usableLong, usableShort] at unusable
  | case2 long longs short shorts usableBoth near =>
    obtain ⟨usableLong, usableShort⟩ : usable long ∧ usable short := by simpa using usableBoth
    refine ⟨⟨⟨List.mem_cons_self, usableLong⟩, ⟨List.mem_cons_self, usableShort⟩, near⟩, ?_⟩
    intro pair synced
    exact ⟨key_head_le sorted synced.long.1, key_head_le sorted' synced.short.1⟩
  | case3 long longs short shorts usableBoth far isBehind ih =>
    have same : Synced (fun print => usable print) sync longs (short :: shorts) =
        Synced (fun print => usable print) sync (long :: longs) (short :: shorts) := by
      funext pair
      refine propext ⟨fun synced => ⟨⟨List.mem_cons_of_mem _ synced.long.1, synced.long.2⟩,
        synced.short, synced.near⟩, fun synced => ⟨⟨?_, synced.long.2⟩, synced.short, synced.near⟩⟩
      refine (List.mem_cons.mp synced.long.1).resolve_left ?_
      intro isFirst
      have later := key_head_le sorted' synced.short.1
      have before := (orders long short).mp isBehind
      have bounds := apart (isFirst ▸ synced.near)
      rw [← distance, abs_of_neg (by omega)] at far
      omega
    exact same ▸ ih (List.forall_mem_cons.mp closed).2
      (List.pairwise_cons.mp sorted).2 sorted'
  | case4 long longs short shorts usableBoth far isAhead ih =>
    have same : Synced (fun print => usable print) sync (long :: longs) shorts =
        Synced (fun print => usable print) sync (long :: longs) (short :: shorts) := by
      funext pair
      refine propext ⟨fun synced => ⟨synced.long, ⟨List.mem_cons_of_mem _ synced.short.1,
        synced.short.2⟩, synced.near⟩, fun synced => ⟨synced.long, ⟨?_, synced.short.2⟩,
          synced.near⟩⟩
      refine (List.mem_cons.mp synced.short.1).resolve_left ?_
      intro isFirst
      have later := key_head_le sorted synced.long.1
      have before := (orders long short).not.mp isAhead
      have bounds := apart (isFirst ▸ synced.near)
      rw [← distance, abs_of_nonneg (by omega)] at far
      omega
    exact same ▸ ih (fun first member => closed first (by simp at member ⊢; tauto)) sorted
      (List.pairwise_cons.mp sorted').2
  | case5 longs shorts short_ =>
    intro pair synced
    cases longs with
    | nil => cases synced.long.1
    | cons long longs =>
      cases shorts with
      | nil => cases synced.short.1
      | cons short shorts => exact absurd rfl (short_ long longs short shorts rfl)

end Walk

/-! ## Entries and marks -/

/-- A print is in the window of an entry. -/
def InWindow (now : ℤ) (print : Print) : Prop :=
  now < print.stamp ∧ print.stamp - now ≤ ageLimit

section Legs

variable {now sync : ℤ} {bars : MinuteBars} {long short ticker : String} {print other : Print}

theorem eq_of_stamp_eq (member : print ∈ bars.points ticker) (member' : other ∈ bars.points ticker)
    (same : print.stamp = other.stamp) : print = other :=
  List.inj_on_of_nodup_map (List.pairwise_map.mpr ((bars.increasing ticker).imp ne_of_lt)) member
    member' same

theorem mem_following_iff : print ∈ bars.points ticker ∧ InWindow now print ↔
    print ∈ following (bars.points ticker) now ∧ print.stamp - now ≤ ageLimit := by
  simp [following, InWindow, and_assoc]

theorem sorted_following : (following (bars.points ticker) now).Pairwise
    fun first second => first.stamp < second.stamp :=
  (bars.increasing ticker).filter _

/-- The next print is the first in the window. -/
theorem next_eq_some_iff : next (bars.points ticker) now = some print ↔
    (print ∈ bars.points ticker ∧ InWindow now print) ∧
      ∀ other ∈ bars.points ticker, InWindow now other → print.stamp ≤ other.stamp := by
  have sorted : (following (bars.points ticker) now).Pairwise _ := sorted_following
  simp only [← and_imp, mem_following_iff, next, Option.filter_eq_some_iff, decide_eq_true_eq]
  cases points : following (bars.points ticker) now with
  | nil => simp
  | cons head rest =>
    rw [points] at sorted
    constructor
    · rintro ⟨found, within⟩
      cases found
      exact ⟨⟨List.mem_cons_self, within⟩, fun other member => key_head_le sorted member.1⟩
    · rintro ⟨⟨member, within⟩, least⟩
      have before := key_head_le sorted member
      have after := least head ⟨List.mem_cons_self, by omega⟩
      rcases List.mem_cons.mp member with rfl | later
      · exact ⟨rfl, within⟩
      · have := (List.pairwise_cons.mp sorted).1 print later
        omega

theorem leads_entry : Leads Print.stamp
    (Synced (InWindow now) sync (bars.points long) (bars.points short))
    (syncedPair (fun print => print.stamp - now ≤ ageLimit)
      (fun long short => long.stamp < short.stamp) sync (following (bars.points long) now)
        (following (bars.points short) now)) := by
  have same : Synced (InWindow now) sync (bars.points long) (bars.points short) =
      Synced (fun print => decide (print.stamp - now ≤ ageLimit)) sync
        (following (bars.points long) now) (following (bars.points short) now) := by
    funext pair
    simp [synced_iff, mem_following_iff]
  rw [same]
  refine leads_syncedPair (fun _ _ => rfl) (fun _ _ => by simp) ?_ sorted_following
    sorted_following
  intro first _ second earlier usable
  simp only [decide_eq_true_eq] at usable ⊢
  omega

/-- The legs that an entry fills at are the first that are close enough. -/
theorem leads_of_entryPrints {pair : Print × Print}
    (found : entryPrints (some sync) now (bars.points long) (bars.points short) = .ok pair) :
    Leads Print.stamp (Synced (InWindow now) sync (bars.points long) (bars.points short))
      (some pair) := by
  have of_elim : ∀ {walked : Option (Print × Print)},
      walked.elim (.error .legsOutOfSync) .ok = (.ok pair : Except NoFill _) →
        walked = some pair := by
    rintro (_ | walked) ok <;> cases ok
    rfl
  rw [entryPrints] at found
  split at found
  case h_1 => exact of_elim found ▸ leads_entry
  case h_2 => cases found

end Legs

end TreeOptions.Outcomes
