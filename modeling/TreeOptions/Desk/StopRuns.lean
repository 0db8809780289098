import TreeOptions.Desk.Stops

/-!
# Runs of stops and resumes

Nothing else touches the three files, and they are absent at first, so whatever passes,
retries and recoveries the desk makes of its queue, its commands are applied one after
another, any of them any number of times, and each may fail or end with the process.
-/

set_option autoImplicit false

namespace TreeOptions.Desk

open Durable

namespace Stops

/-! ## What the files record -/

/-- The file records a stop issued at the instant or later. -/
def Holds (stops : Stops) (file : StopFile) (instant : ℤ) : Prop :=
  ∃ issued, stops.recorded file = some issued ∧ instant ≤ issued

/-- Every stop file is a record that a command wrote. -/
def Regular (stops : Stops) : Prop :=
  ∀ file content, stops.files file = some content → ∃ written, content = .record written

variable {stops later : Stops} {file other : StopFile} {instant issuedAt : ℤ}

theorem Holds.stands (holds : stops.Holds file instant) : (stops.files file).isSome := by
  obtain ⟨issued, recorded, -⟩ := holds
  obtain ⟨content, stands, -⟩ := Option.bind_eq_some_iff.mp recorded
  rw [stands]
  rfl

theorem Holds.congr (same : later.files file = stops.files file)
    (holds : stops.Holds file instant) : later.Holds file instant := by
  obtain ⟨issued, recorded, notLater⟩ := holds
  refine ⟨issued, ?_, notLater⟩
  rw [Stops.recorded, same]
  exact recorded

theorem Regular.congr (same : later.files = stops.files) (regular : stops.Regular) :
    later.Regular := by
  intro file content stands
  rw [same] at stands
  exact regular file content stands

theorem recorded_eq (stops : Stops) (file : StopFile) :
    stops.recorded file = ((stops.files file).bind StopContent.object).bind StopRecord.issuedAt := by
  rw [Option.bind_assoc]
  rfl

theorem newer_congr (same : later.files file = stops.files file) :
    later.newer file issuedAt = stops.newer file issuedAt := by
  simp only [newer, recorded, same]

theorem Holds.newer (holds : stops.Holds file instant) (after : issuedAt < instant) :
    stops.newer file issuedAt = true := by
  obtain ⟨issued, recorded, notLater⟩ := holds
  simp only [Stops.newer, recorded, Option.any_some, decide_eq_true_eq]
  exact lt_of_lt_of_le after notLater

@[simp] theorem put_files (stops : Stops) (file : StopFile) (content : Option StopContent) :
    (stops.put file content).files = Function.update stops.files file content :=
  rfl

theorem regular_put_record (regular : stops.Regular) (file : StopFile) (written : StopRecord) :
    (stops.put file (some (.record written))).Regular := by
  intro other content stands
  rw [put_files] at stands
  by_cases same : other = file
  · subst same
    rw [Function.update_self, Option.some.injEq] at stands
    exact ⟨written, stands.symm⟩
  · rw [Function.update_of_ne same] at stands
    exact regular other content stands

theorem regular_put_none (regular : stops.Regular) (file : StopFile) :
    (stops.put file none).Regular := by
  intro other content stands
  rw [put_files] at stands
  by_cases same : other = file
  · subst same
    rw [Function.update_self] at stands
    cases stands
  · rw [Function.update_of_ne same] at stands
    exact regular other content stands

theorem holds_put_record {written : StopRecord} {issued : ℤ}
    (recorded : written.issuedAt = some issued) (notLater : instant ≤ issued) :
    (stops.put file (some (.record written))).Holds file instant := by
  refine ⟨issued, ?_, notLater⟩
  simp [Stops.recorded, StopContent.issuedAt, StopContent.object, recorded]

end Stops

/-! ## Placing a stop -/

section

variable {stops : Stops} {fates : StopOp → Fate} {file : StopFile}

theorem ends_readObject {after : Ending StopError (Option StopRecord) → Stops → Prop}
    (reads : fates (.read file) = .done →
      after (.returned ((stops.files file).bind StopContent.object)) stops)
    (fails : fates (.read file) = .fails → after (.returned none) stops)
    (dies : fates (.read file) = .dies → after .died stops) :
    Ends (readObject file) stops fates after :=
  ends_attempt (ends_bind (ends_operate reads fails dies))

theorem ends_issuedAfter {issuedAt : ℤ} {after : Ending StopError Bool → Stops → Prop}
    (reads : fates (.read file) = .done → after (.returned (stops.newer file issuedAt)) stops)
    (fails : fates (.read file) = .fails → after (.returned false) stops)
    (dies : fates (.read file) = .dies → after .died stops) :
    Ends (issuedAfter file issuedAt) stops fates after := by
  refine ends_bind (ends_readObject ?_ fails dies)
  intro done
  have found := reads done
  rw [Stops.newer, Stops.recorded_eq] at found
  exact found

theorem ends_appendAudit (line : AuditLine) :
    Ends (appendAudit line) stops fates fun ending later =>
      later.files = stops.files ∧
        (fates .append = .done → fates .sync = .done → ending = .returned ⟨⟩) ∧
        ((∀ op, fates op ≠ .dies) → ending ≠ .died) := by
  refine ends_bind (ends_operate ?_ ?_ ?_)
  · intro _
    refine Ends.next (ends_operate ?_ ?_ ?_)
    · intro _
      exact ⟨rfl, fun _ _ => rfl, fun _ died => nomatch died⟩
    · intro fails
      exact ⟨rfl, fun _ synced => (nomatch synced.symm.trans fails), fun _ died => nomatch died⟩
    · intro dies
      exact ⟨rfl, fun _ synced => (nomatch synced.symm.trans dies), fun lives => (lives _ dies).elim⟩
  · intro fails
    exact ⟨rfl, fun done _ => (nomatch done.symm.trans fails), fun _ died => nomatch died⟩
  · intro dies
    exact ⟨rfl, fun done _ => (nomatch done.symm.trans dies), fun lives => (lives _ dies).elim⟩

/-- What becomes of the files where a stop is placed or re-stamped. -/
structure Stamps {Value : Type} (stops : Stops) (file : StopFile) (issuedAt : ℤ)
    (fates : StopOp → Fate) (ending : Ending StopError Value) (later : Stops) : Prop where
  others : ∀ other, other ≠ file → later.files other = stops.files other
  regular : stops.Regular → later.Regular
  held : (stops.newer file issuedAt → fates (.read file) ≠ .fails) →
    ∀ instant, stops.Holds file instant → later.Holds file instant
  holds : stops.Regular → ∀ value, ending = .returned value → later.Holds file issuedAt

namespace Stamps

variable {Value Result : Type} {file : StopFile} {issuedAt : ℤ} {later last : Stops}
  {ending : Ending StopError Value}

/-- Nothing is written, and nothing is returned unless the file is newer. -/
theorem unchanged
    (holds : stops.Regular → ∀ value, ending = .returned value → stops.Holds file issuedAt) :
    Stamps stops file issuedAt fates ending stops :=
  ⟨fun _ _ => rfl, id, fun _ _ => id, holds⟩

theorem written {written : StopRecord} (recorded : written.issuedAt = some issuedAt)
    (notNewer : (stops.newer file issuedAt → fates (.read file) ≠ .fails) →
      ∀ instant, stops.Holds file instant → instant ≤ issuedAt) :
    Stamps stops file issuedAt fates ending (stops.put file (some (.record written))) where
  others other differs := by rw [Stops.put_files, Function.update_of_ne differs]
  regular regular := Stops.regular_put_record regular file written
  held reads instant holds := Stops.holds_put_record recorded (notNewer reads instant holds)
  holds _ _ _ := Stops.holds_put_record recorded le_rfl

theorem trans {ending' : Ending StopError Result}
    (stamps : Stamps stops file issuedAt fates ending later) (same : last.files = later.files)
    (ended : ∀ result, ending' = .returned result → ∃ value, ending = .returned value) :
    Stamps stops file issuedAt fates ending' last where
  others other differs := by rw [same, stamps.others other differs]
  regular regular := (stamps.regular regular).congr same
  held reads instant holds := (stamps.held reads instant holds).congr (by rw [same])
  holds regular result returned := by
    obtain ⟨value, before⟩ := ended result returned
    exact (stamps.holds regular value before).congr (by rw [same])

end Stamps

theorem ends_stamp {issuedAt : ℤ} {fresh : StopRecord} {record : Option StopRecord}
    (known : record = (stops.files file).bind StopContent.object ∨
      record = none ∧ fates (.read file) = .fails) :
    Ends (stamp file issuedAt fresh record) stops fates (Stamps stops file issuedAt fates) := by
  rw [stamp]
  split
  case isTrue newest =>
    refine ends_pure (.unchanged ?_)
    intro _ _ _
    rcases known with rfl | ⟨rfl, -⟩
    · rw [← Stops.recorded_eq] at newest
      cases recorded : stops.recorded file with
      | none => simp [recorded] at newest
      | some issued =>
        rw [recorded, Option.any_some, decide_eq_true_eq] at newest
        exact ⟨issued, recorded, newest⟩
    · simp at newest
  case isFalse older =>
    refine ends_bind (ends_operate ?_ ?_ ?_)
    · intro _
      refine Ends.next (ends_pure (.written rfl ?_))
      intro reads instant holds
      obtain ⟨issued, recorded, notLater⟩ := holds
      rcases known with rfl | ⟨rfl, fails⟩
      · rw [← Stops.recorded_eq, recorded, Option.any_some, decide_eq_true_eq] at older
        omega
      · by_contra later
        exact reads (Stops.Holds.newer ⟨issued, recorded, notLater⟩ (not_le.mp later)) fails
    all_goals exact fun _ => .unchanged fun _ _ returned => nomatch returned

/-- **A standing stop file is kept at the newest issue time.** -/
theorem ends_restampStop {issuedAt : ℤ} {fresh : StopRecord} {standing : Option StopContent}
    (stands : stops.files file = standing) (isSome : standing.isSome) :
    Ends (restampStop file issuedAt fresh standing) stops fates
      (Stamps stops file issuedAt fates) := by
  have reading : Ends (readObject file >>= stamp file issuedAt fresh) stops fates
      (Stamps stops file issuedAt fates) := by
    refine ends_bind (ends_readObject ?_ ?_ ?_)
    · intro _
      exact Ends.next (ends_stamp (.inl rfl))
    · intro fails
      exact Ends.next (ends_stamp (.inr ⟨rfl, fails⟩))
    · intro _
      exact .unchanged fun _ _ returned => nomatch returned
  cases standing with
  | none => cases isSome
  | some content =>
    cases content with
    | record written => exact reading
    | unreadable => exact reading
    | link =>
      refine ends_pure (.unchanged ?_)
      intro regular
      obtain ⟨written, isRecord⟩ := regular file .link stands
      cases isRecord

theorem ends_writeAtomic {written : StopRecord} {issuedAt : ℤ} (absent : stops.files file = none)
    (recorded : written.issuedAt = some issuedAt) :
    Ends (writeAtomic file (.record written)) stops fates (Stamps stops file issuedAt fates) := by
  refine ends_operate ?_ ?_ ?_
  · intro _
    refine .written recorded ?_
    intro _ instant holds
    have stands := holds.stands
    rw [absent] at stands
    cases stands
  all_goals exact fun _ => .unchanged fun _ _ returned => nomatch returned

theorem ends_after_stamps {Value Result : Type} {issuedAt : ℤ} {first : StopProgram Value}
    {next : Value → StopProgram Result}
    (stamps : Ends first stops fates (Stamps stops file issuedAt fates))
    (keeps : ∀ value later, Ends (next value) later fates fun _ last => last.files = later.files) :
    Ends (first >>= next) stops fates (Stamps stops file issuedAt fates) := by
  refine ends_bind (stamps.mono ?_)
  intro ending later stamps
  cases ending with
  | returned value => exact stamps.trans (keeps value later) fun _ _ => ⟨value, rfl⟩
  | raised error => exact stamps.trans rfl fun _ returned => nomatch returned
  | died => exact stamps.trans rfl fun _ returned => nomatch returned

/-- **A `HALT` or `FLATTEN` is placed, or kept at the newest issue time.** -/
theorem ends_stop (file : StopFile) (command : StopCommand) (now : ℤ) :
    Ends (stop file command now) stops fates (Stamps stops file command.issuedAt fates) := by
  refine ends_bind (ends_bind (ends_observe (Ends.next ?_)))
  cases standing : stops.files file with
  | some content =>
    refine ends_pure (Ends.next (ends_bind (ends_observe (Ends.next ?_))))
    refine ends_after_stamps (ends_restampStop rfl ?_) fun _ _ => ends_pure rfl
    rw [standing]
    rfl
  | none =>
    refine ends_bind ((ends_writeAtomic standing rfl).mono ?_)
    intro ending later stamps
    cases ending with
    | returned value =>
      exact Ends.next (ends_pure (Ends.next (ends_pure
        (stamps.trans rfl fun _ _ => ⟨value, rfl⟩))))
    | raised error => exact stamps.trans rfl fun _ returned => nomatch returned
    | died => exact stamps.trans rfl fun _ returned => nomatch returned

theorem ends_placePause {written : StopRecord} {issuedAt : ℤ}
    (recorded : written.issuedAt = some issuedAt) :
    Ends (placePause written (some issuedAt) (stops.files .pauseEntries)) stops fates
      (Stamps stops .pauseEntries issuedAt fates) := by
  cases standing : stops.files .pauseEntries with
  | none => exact ends_after_stamps (ends_writeAtomic standing recorded) fun _ _ => ends_pure rfl
  | some content => exact ends_restampStop standing rfl

/-- **The pause is placed, or kept at the newest issue time, before it is audited.** -/
theorem ends_pauseEntries (classes : CharacterClasses) (actor reason : String) (now : ℤ)
    (commandKey : Option String) (issuedAt : ℤ) :
    Ends (pauseEntries classes actor reason now commandKey (some issuedAt)) stops fates
      (Stamps stops .pauseEntries issuedAt fates) := by
  refine ends_bind ?_
  cases validated classes actor reason commandKey with
  | some error => exact ends_raise (.unchanged fun _ _ returned => nomatch returned)
  | none =>
    refine ends_pure (Ends.next (ends_bind (ends_observe (Ends.next ?_))))
    refine ends_after_stamps (ends_placePause rfl) ?_
    intro _ later
    refine ends_bind ((ends_appendAudit _).mono ?_)
    rintro ending last ⟨same, -⟩
    cases ending with
    | returned value => exact Ends.next (ends_pure same)
    | raised error => exact same
    | died => exact same

/-! ## Lifting the stops -/

/-- Nothing gets in the way of a resume. -/
def Unhindered (fates : StopOp → Fate) : Prop :=
  (∀ op, fates op ≠ .dies) ∧ (∀ file, fates (.remove file) = .done) ∧
    fates .append = .done ∧ fates .sync = .done

/-- The pause can be saved, and put back if its audit line cannot be written. -/
def CanPutBack (fates : StopOp → Fate) : Prop :=
  (∀ op, fates op ≠ .dies) ∧ fates .save = .done ∧ fates .restore = .done

structure Lifts {Value : Type} (stops : Stops) (targets : List StopFile) (issuedAt : ℤ)
    (valid : Prop) (fates : StopOp → Fate) (ending : Ending StopError Value) (later : Stops) :
    Prop where
  others : ∀ file, file ∉ targets → later.files file = stops.files file
  newer : ∀ file, stops.newer file issuedAt → fates (.read file) ≠ .fails →
    later.files file = stops.files file
  regular : stops.Regular → later.Regular
  unremoved : (∀ file, fates (.remove file) ≠ .done) → later.files = stops.files
  returns : valid → Unhindered fates → ∃ value, ending = .returned value
  putBack : CanPutBack fates → stops.files .pauseEntries ≠ some .link →
    (∃ value, ending = .returned value) ∨
      later.files .pauseEntries = stops.files .pauseEntries

namespace Lifts

variable {Value Result : Type} {targets : List StopFile} {issuedAt : ℤ} {valid : Prop}
  {later last : Stops}

variable {ending : Ending StopError Value}

theorem unchanged (same : later.files = stops.files)
    (returns : valid → Unhindered fates → ∃ value, ending = .returned value) :
    Lifts stops targets issuedAt valid fates ending later where
  others file _ := by rw [same]
  newer file _ _ := by rw [same]
  regular regular := regular.congr same
  unremoved _ := same
  returns := returns
  putBack _ _ := .inr (by rw [same])

theorem put (content : Option StopContent) (covered : .pauseEntries ∈ targets)
    (notKept : stops.newer .pauseEntries issuedAt → fates (.read .pauseEntries) = .fails)
    (removed : fates (.remove .pauseEntries) = .done)
    (same : later.files = Function.update stops.files .pauseEntries content)
    (isRecord : stops.Regular → ∀ found, content = some found → ∃ written, found = .record written)
    (returns : valid → Unhindered fates → ∃ value, ending = .returned value)
    (putBack : CanPutBack fates → stops.files .pauseEntries ≠ some .link →
      (∃ value, ending = .returned value) ∨ content = stops.files .pauseEntries) :
    Lifts stops targets issuedAt valid fates ending later where
  others file notCovered := by
    rw [same, Function.update_of_ne]
    rintro rfl
    exact notCovered covered
  newer file isNewer reads := by
    rw [same, Function.update_of_ne]
    rintro rfl
    exact reads (notKept isNewer)
  regular regular file found stands := by
    rw [same] at stands
    by_cases isPause : file = .pauseEntries
    · subst isPause
      rw [Function.update_self] at stands
      exact isRecord regular found stands
    · rw [Function.update_of_ne isPause] at stands
      exact regular file found stands
  unremoved never := (never _ removed).elim
  returns := returns
  putBack can notLink := by
    rw [same, Function.update_self]
    exact putBack can notLink

theorem answer {answer : Value → Result}
    (lifts : Lifts stops targets issuedAt valid fates ending later) :
    Then fates (fun value => (pure (answer value) : StopProgram Result))
      (Lifts stops targets issuedAt valid fates) ending later := by
  cases ending with
  | returned value =>
    exact ⟨lifts.others, lifts.newer, lifts.regular, lifts.unremoved, fun _ _ => ⟨_, rfl⟩,
      fun _ _ => .inl ⟨_, rfl⟩⟩
  | _ =>
    exact ⟨lifts.others, lifts.newer, lifts.regular, lifts.unremoved,
      fun ok free => (lifts.returns ok free).elim fun _ returned => (nomatch returned),
      fun can notLink => (lifts.putBack can notLink).imp_left
        fun ⟨_, returned⟩ => (nomatch returned)⟩

end Lifts

theorem ends_savePause {content : StopContent}
    {after : Ending StopError (Option StopContent) → Stops → Prop}
    (saved : after (.returned (some content)) stops)
    (lost : content = .link ∨ fates .save = .fails → after (.returned none) stops)
    (dies : fates .save = .dies → after .died stops) :
    Ends (savePause content) stops fates after := by
  cases content with
  | link => exact ends_pure (lost (.inl rfl))
  | record written =>
    exact ends_attempt (ends_bind (ends_operate (fun _ => saved) (fun fails => lost (.inr fails))
      dies))
  | unreadable =>
    exact ends_attempt (ends_bind (ends_operate (fun _ => saved) (fun fails => lost (.inr fails))
      dies))

/-- **An audit line is written, or the pause is put back.** -/
theorem ends_audited {line : AuditLine} {now : ℤ} {saved : Option StopContent} {answer : Resumed}
    {issuedAt : ℤ} {valid : Prop} {content : StopContent}
    (stands : stops.files .pauseEntries = some content)
    (notKept : stops.newer .pauseEntries issuedAt → fates (.read .pauseEntries) = .fails)
    (removed : fates (.remove .pauseEntries) = .done)
    (isContent : ∀ found, saved = some found → found = content)
    (isSaved : CanPutBack fates → content ≠ .link → saved = some content) :
    Ends (do
        attempt (appendAudit line) (restorePause now true saved)
        pure answer)
      (stops.put .pauseEntries none) fates
      (Lifts stops [.pauseEntries] issuedAt valid fates) := by
  refine ends_bind (ends_attempt ((ends_appendAudit line).mono ?_))
  rintro ending later ⟨same, written, lives⟩
  have gone : later.files = Function.update stops.files .pauseEntries none := same
  have isRecord : stops.Regular → ∀ found, (none : Option StopContent) = some found →
      ∃ written, found = .record written := fun _ _ isSome => nomatch isSome
  cases ending with
  | returned value =>
    exact Ends.next (ends_pure (.put none List.mem_cons_self notKept removed gone isRecord
      (fun _ _ => ⟨_, rfl⟩) fun _ _ => .inl ⟨_, rfl⟩))
  | died =>
    exact .put none List.mem_cons_self notKept removed gone isRecord
      (fun _ free => nomatch written free.2.2.1 free.2.2.2)
      fun can _ => (lives can.1 rfl).elim
  | raised error =>
    refine Ends.handles (ends_bind (ends_operate ?_ ?_ ?_))
    · intro restored
      refine Ends.next (ends_raise (.put (some (saved.getD (.record (restoredRecord now))))
        List.mem_cons_self notKept removed ?_ ?_
        (fun _ free => nomatch written free.2.2.1 free.2.2.2) ?_))
      · rw [Stops.put_files, gone, Function.update_idem]
      · intro regular found isFound
        cases saved with
        | none => exact ⟨restoredRecord now, (Option.some.inj isFound).symm⟩
        | some before =>
          obtain rfl := isContent before rfl
          cases isFound
          exact regular .pauseEntries before stands
      · intro can notLink
        rw [stands] at notLink ⊢
        rw [isSaved can fun isLink => notLink (congrArg some isLink)]
        exact .inr rfl
    · intro fails
      exact .put none List.mem_cons_self notKept removed gone isRecord
        (fun _ free => nomatch written free.2.2.1 free.2.2.2)
        fun can _ => nomatch can.2.2.symm.trans fails
    · intro dies
      exact .put none List.mem_cons_self notKept removed gone isRecord
        (fun _ free => nomatch written free.2.2.1 free.2.2.2)
        fun can _ => nomatch can.2.2.symm.trans dies

/-- **A pause that is lifted is audited, or put back.** -/
theorem ends_liftPause {line : AuditLine} {now issuedAt : ℤ} {answer : Resumed} {valid : Prop}
    {standing : Option StopContent} (stands : stops.files .pauseEntries = standing)
    (notKept : stops.newer .pauseEntries issuedAt → fates (.read .pauseEntries) = .fails) :
    Ends (do
        let saved ← removePause standing
        attempt (appendAudit line) (restorePause now standing.isSome saved)
        pure answer)
      stops fates (Lifts stops [.pauseEntries] issuedAt valid fates) := by
  refine ends_bind ?_
  cases standing with
  | none =>
    refine ends_pure (Ends.next (ends_bind (ends_attempt ((ends_appendAudit line).mono ?_))))
    rintro ending later ⟨same, written, -⟩
    cases ending with
    | returned value => exact Ends.next (ends_pure (.unchanged same fun _ _ => ⟨_, rfl⟩))
    | raised error =>
      exact Ends.handles (ends_raise (.unchanged same
        fun _ free => nomatch written free.2.2.1 free.2.2.2))
    | died => exact .unchanged same fun _ free => nomatch written free.2.2.1 free.2.2.2
  | some content =>
    have removing : ∀ saved, (∀ found, saved = some found → found = content) →
        (CanPutBack fates → content ≠ .link → saved = some content) →
        Ends (do
            operate (.remove .pauseEntries) .fileOperation
              fun stops => stops.put .pauseEntries none
            pure saved : StopProgram (Option StopContent)) stops fates
          (Then fates (fun saved => do
              attempt (appendAudit line) (restorePause now true saved)
              pure answer) (Lifts stops [.pauseEntries] issuedAt valid fates)) := by
      intro saved isContent isSaved
      refine ends_bind (ends_operate ?_ ?_ ?_)
      · intro removed
        exact Ends.next (ends_pure (Ends.next
          (ends_audited stands notKept removed isContent isSaved)))
      · intro fails
        exact .unchanged rfl fun _ free => nomatch (free.2.1 _).symm.trans fails
      · intro dies
        exact .unchanged rfl fun _ free => (free.1 _ dies).elim
    refine ends_bind (ends_savePause ?_ ?_ ?_)
    · exact Ends.next (removing _ (fun _ found => (Option.some.inj found).symm)
        fun _ _ => rfl)
    · intro lost
      refine Ends.next (removing _ (fun _ found => nomatch found) ?_)
      intro can notLink
      rcases lost with isLink | fails
      · exact (notLink isLink).elim
      · exact nomatch can.2.1.symm.trans fails
    · intro dies
      exact .unchanged rfl fun _ free => (free.1 _ dies).elim

/-- **A resume of the entries lifts the pause, unless it is newer.** -/
theorem ends_resumeEntries (classes : CharacterClasses) (actor reason : String) (now : ℤ)
    (commandKey : Option String) (issuedAt : ℤ) :
    Ends (resumeEntries classes actor reason now commandKey (some issuedAt)) stops fates
      (Lifts stops [.pauseEntries] issuedAt (validated classes actor reason commandKey = none)
        fates) := by
  refine ends_bind ?_
  cases validated classes actor reason commandKey with
  | some error => exact ends_raise (.unchanged rfl fun valid => nomatch valid)
  | none =>
    refine ends_pure (Ends.next (ends_bind (ends_observe (Ends.next (ends_bind ?_)))))
    cases stands : stops.files .pauseEntries with
    | none =>
      refine ends_pure (Ends.next (ends_liftPause stands ?_))
      intro isNewer
      rw [Stops.newer, Stops.recorded, stands] at isNewer
      cases isNewer
    | some content =>
      refine ends_issuedAfter ?_ ?_ ?_
      · intro done
        cases isNewer : stops.newer .pauseEntries issuedAt with
        | false => exact Ends.next (ends_liftPause stands fun newer => nomatch
            isNewer.symm.trans newer)
        | true =>
          refine Ends.next (ends_bind ((ends_appendAudit _).mono ?_))
          rintro ending later ⟨same, written, -⟩
          cases ending with
          | returned value =>
            exact Ends.next (ends_pure (.unchanged same fun _ _ => ⟨_, rfl⟩))
          | raised error =>
            exact .unchanged same fun _ free => nomatch written free.2.2.1 free.2.2.2
          | died =>
            exact .unchanged same fun _ free => nomatch written free.2.2.1 free.2.2.2
      · intro fails
        exact Ends.next (ends_liftPause stands fun _ => fails)
      · intro dies
        exact .unchanged rfl fun _ free => (free.1 _ dies).elim

theorem ends_keptOf (issuedAt : ℤ) (files : List StopFile) :
    Ends (keptOf issuedAt files) stops fates fun ending later =>
      later = stops ∧
        (∀ kept, ending = .returned kept → ∀ file ∈ files, stops.newer file issuedAt →
          fates (.read file) ≠ .fails → file ∈ kept) ∧
        ((∀ op, fates op ≠ .dies) → ∃ kept, ending = .returned kept) := by
  induction files with
  | nil =>
    exact ends_pure ⟨rfl, fun _ _ _ isMember => (nomatch isMember), fun _ => ⟨_, rfl⟩⟩
  | cons file rest ih =>
    have going : ∀ newer, (stops.newer file issuedAt → fates (.read file) ≠ .fails →
        newer = true) →
        Ends (keptOf issuedAt rest >>= fun kept =>
          (pure (if newer then file :: kept else kept) : StopProgram (List StopFile)))
          stops fates fun ending later =>
            later = stops ∧
              (∀ kept, ending = .returned kept → ∀ other ∈ file :: rest,
                stops.newer other issuedAt → fates (.read other) ≠ .fails → other ∈ kept) ∧
              ((∀ op, fates op ≠ .dies) → ∃ kept, ending = .returned kept) := by
      intro newer isKept
      refine ends_bind (ih.mono ?_)
      rintro ending later ⟨rfl, keeps, returns⟩
      cases ending with
      | raised error =>
        exact ⟨rfl, fun _ returned => (nomatch returned),
          fun lives => (returns lives).elim fun _ returned => (nomatch returned)⟩
      | died =>
        exact ⟨rfl, fun _ returned => (nomatch returned),
          fun lives => (returns lives).elim fun _ returned => (nomatch returned)⟩
      | returned kept =>
        refine Ends.next (ends_pure ⟨rfl, ?_, fun _ => ⟨_, rfl⟩⟩)
        intro all isAll other isMember isNewer reads
        obtain rfl := Ending.returned.inj isAll
        rcases List.mem_cons.mp isMember with rfl | later
        · rw [if_pos (isKept isNewer reads)]
          exact List.mem_cons_self
        · have inKept := keeps kept rfl other later isNewer reads
          split
          · exact List.mem_cons_of_mem _ inKept
          · exact inKept
    refine ends_bind (ends_issuedAfter ?_ ?_ ?_)
    · intro _
      exact Ends.next (going _ fun isNewer _ => isNewer)
    · intro fails
      exact Ends.next (going _ fun _ reads => (reads fails).elim)
    · intro dies
      exact ⟨rfl, fun _ returned => (nomatch returned), fun lives => (lives _ dies).elim⟩

theorem ends_removeFiles (files : List StopFile) :
    Ends (removeFiles files) stops fates fun ending later =>
      (∀ file, file ∉ files → later.files file = stops.files file) ∧
        (stops.Regular → later.Regular) ∧
        ((∀ file, fates (.remove file) ≠ .done) → later.files = stops.files) ∧
        (Unhindered fates → ending = .returned ⟨⟩) := by
  induction files generalizing stops with
  | nil => exact ends_pure ⟨fun _ _ => rfl, id, fun _ => rfl, fun _ => rfl⟩
  | cons file rest ih =>
    refine ends_bind (ends_operate ?_ ?_ ?_)
    · intro removed
      refine Ends.next (ih.mono ?_)
      rintro ending later ⟨others, regular, -, returns⟩
      refine ⟨?_, fun before => regular (Stops.regular_put_none before file),
        fun never => (never file removed).elim, returns⟩
      intro other notMember
      rw [others other (List.not_mem_of_not_mem_cons notMember), Stops.put_files,
        Function.update_of_ne (List.ne_of_not_mem_cons notMember)]
    · intro fails
      exact ⟨fun _ _ => rfl, id, fun _ => rfl,
        fun free => nomatch (free.2.1 file).symm.trans fails⟩
    · intro dies
      exact ⟨fun _ _ => rfl, id, fun _ => rfl, fun free => (free.1 _ dies).elim⟩

theorem mem_covers_resumeAll :
    file ∈ StopKind.resumeAll.covers ↔ file ∈ [StopFile.halt, .flatten] ∨ file ∈ [.pauseEntries] :=
  List.mem_append (s := [StopFile.halt, .flatten]) (t := [.pauseEntries])

/-- What the first part of `resumeAll` leaves of the files. -/
structure LiftsKills (stops : Stops) (issuedAt : ℤ) (fates : StopOp → Fate) (later : Stops) :
    Prop where
  others : ∀ file, file ∉ [StopFile.halt, .flatten] → later.files file = stops.files file
  newer : ∀ file, stops.newer file issuedAt → fates (.read file) ≠ .fails →
    later.files file = stops.files file
  regular : stops.Regular → later.Regular
  unremoved : (∀ file, fates (.remove file) ≠ .done) → later.files = stops.files

namespace LiftsKills

variable {Value : Type} {issuedAt : ℤ} {valid : Prop} {later last : Stops}
  {ending : Ending StopError Value}

/-- The resume goes no further. -/
theorem stopped (kills : LiftsKills stops issuedAt fates later) (hindered : ¬ Unhindered fates) :
    Lifts stops StopKind.resumeAll.covers issuedAt valid fates ending later where
  others file notCovered := kills.others file fun isKill =>
    notCovered (mem_covers_resumeAll.mpr (.inl isKill))
  newer := kills.newer
  regular := kills.regular
  unremoved := kills.unremoved
  returns _ free := (hindered free).elim
  putBack _ _ := .inr (kills.others .pauseEntries (by decide))

theorem trans (kills : LiftsKills stops issuedAt fates later)
    (lifts : Lifts later [.pauseEntries] issuedAt valid fates ending last) :
    Lifts stops StopKind.resumeAll.covers issuedAt valid fates ending last := by
  have samePause := kills.others .pauseEntries (by decide)
  refine ⟨?_, ?_, fun regular => lifts.regular (kills.regular regular), ?_, lifts.returns, ?_⟩
  · intro file notCovered
    rw [lifts.others file fun isPause => notCovered (mem_covers_resumeAll.mpr (.inr isPause)),
      kills.others file fun isKill => notCovered (mem_covers_resumeAll.mpr (.inl isKill))]
  · intro file isNewer reads
    have same := kills.newer file isNewer reads
    rw [lifts.newer file (by rw [Stops.newer_congr same, isNewer]) reads, same]
  · intro never
    rw [lifts.unremoved never, kills.unremoved never]
  · intro can notLink
    rw [← samePause] at notLink ⊢
    exact lifts.putBack can notLink

end LiftsKills

/-- **A resume of everything lifts all three files, unless they are newer.** -/
theorem ends_resumeAll (classes : CharacterClasses) (command : StopCommand) (now : ℤ) :
    Ends (resumeAll classes command now) stops fates
      (Lifts stops StopKind.resumeAll.covers command.issuedAt
        (validated classes (actorLabel command.issuedBy) command.reason
          (some command.idempotencyKey) = none) fates) := by
  refine ends_bind (ends_observe (Ends.next (ends_bind ((ends_keptOf _ _).mono ?_))))
  rintro ending later ⟨rfl, keeps, survives⟩
  cases ending with
  | raised error =>
    exact .unchanged rfl fun _ free => (survives free.1).elim fun _ returned => nomatch returned
  | died =>
    exact .unchanged rfl fun _ free => (survives free.1).elim fun _ returned => nomatch returned
  | returned kept =>
    refine Ends.next (ends_bind ((ends_removeFiles _).mono ?_))
    rintro ending after ⟨others, regular, unremoved, returns⟩
    have kills : LiftsKills later command.issuedAt fates after := by
      refine ⟨?_, ?_, regular, unremoved⟩
      · intro file notKill
        exact others file fun isRemoved => notKill (List.mem_filter.mp isRemoved).1
      · intro file isNewer reads
        refine others file fun isRemoved => ?_
        obtain ⟨isKill, removable⟩ := List.mem_filter.mp isRemoved
        rw [Bool.and_eq_true, Bool.not_eq_true'] at removable
        have inKept := keeps kept rfl file (List.mem_filter.mpr ⟨isKill, removable.1⟩) isNewer
          reads
        rw [List.contains_iff_mem.mpr inKept] at removable
        exact nomatch removable.2
    cases ending with
    | raised error => exact kills.stopped fun free => nomatch returns free
    | died => exact kills.stopped fun free => nomatch returns free
    | returned value =>
      refine Ends.next (ends_bind ((ends_resumeEntries classes _ _ _ _ _).mono ?_))
      intro ending last lifts
      exact (kills.trans lifts).answer

/-! ## One command -/

variable {classes : CharacterClasses} {command : StopCommand} {now : ℤ}

theorem ends_dispatch_stop (places : command.kind.places = some file) :
    Ends (dispatch classes command now) stops fates
      (Stamps stops file command.issuedAt fates) := by
  rw [dispatch]
  cases kind : command.kind with
  | resumeEntries => rw [kind] at places; cases places
  | resumeAll => rw [kind] at places; cases places
  | pauseEntries =>
    rw [kind] at places
    cases places
    exact ends_after_stamps (ends_pauseEntries classes _ _ _ _ _) fun _ _ => ends_pure rfl
  | halt =>
    rw [kind] at places
    cases places
    exact ends_after_stamps (ends_stop .halt command now) fun _ _ => ends_pure rfl
  | flatten =>
    rw [kind] at places
    cases places
    exact ends_after_stamps (ends_stop .flatten command now) fun _ _ =>
      ends_bind (ends_observe (Ends.next (ends_pure rfl)))

def Auditable (classes : CharacterClasses) (command : StopCommand) : Prop :=
  validated classes (actorLabel command.issuedBy) command.reason (some command.idempotencyKey) = none

theorem ends_dispatch_resume (isResume : command.kind.places = none) :
    Ends (dispatch classes command now) stops fates
      (Lifts stops command.kind.covers command.issuedAt (Auditable classes command) fates) := by
  rw [dispatch]
  cases kind : command.kind with
  | pauseEntries => rw [kind] at isResume; cases isResume
  | halt => rw [kind] at isResume; cases isResume
  | flatten => rw [kind] at isResume; cases isResume
  | resumeEntries =>
    exact ends_bind ((ends_resumeEntries classes _ _ _ _ _).mono fun _ _ lifts => lifts.answer)
  | resumeAll => exact ends_resumeAll classes command now

end

/-! ## Runs -/

/-- One command that is applied, when, and what becomes of its operations. -/
structure Step where
  command : StopCommand
  now : ℤ
  fates : StopOp → Fate

/-- A command that was tried, and how that ended. -/
structure Entry where
  command : StopCommand
  ending : Ending StopError Facts

/-- The command was answered as applied. -/
def Entry.Applied (entry : Entry) : Prop :=
  ∃ facts, entry.ending = .returned facts

structure DeskState where
  stops : Stops
  log : List Entry

/-- The desk after a command. -/
def DeskState.next (classes : CharacterClasses) (desk : DeskState) (step : Step) : DeskState where
  stops := (dispatch classes step.command step.now desk.stops step.fates).2
  log := desk.log ++
    [⟨step.command, (dispatch classes step.command step.now desk.stops step.fates).1⟩]

/-- Commands applied one after another, in any order and any number of times. -/
def stopSystem (classes : CharacterClasses) : System DeskState Step where
  Initial desk := (∀ file, desk.stops.files file = none) ∧ desk.log = []
  step desk step := some (desk.next classes step)

/-- A stop stands that no covering resume which is not older was applied after. -/
def StopStands (desk : DeskState) : Prop :=
  ∀ file, ∀ stop ∈ desk.log, stop.command.kind.places = some file → stop.Applied →
    (∀ resume ∈ desk.log, resume.Applied → file ∈ resume.command.kind.covers →
      ¬ stop.command.issuedAt ≤ resume.command.issuedAt) →
    (desk.stops.files file).isSome

/-- A stop after which only older resumes were applied stands, and its file records no
earlier time. -/
def NewestStopRecorded (desk : DeskState) : Prop :=
  ∀ file before stop after, desk.log = before ++ stop :: after →
    stop.command.kind.places = some file → stop.Applied →
    (∀ resume ∈ after, resume.Applied → file ∈ resume.command.kind.covers →
      resume.command.issuedAt < stop.command.issuedAt) →
    desk.stops.Holds file stop.command.issuedAt

def lifted (stops : Stops) (command : StopCommand) : List StopFile :=
  command.kind.covers.filter fun file =>
    (stops.files file).isSome && !stops.newer file command.issuedAt

structure Undisturbed (classes : CharacterClasses) (desk : DeskState) (step : Step) : Prop where
  reads : ∀ file, desk.stops.newer file step.command.issuedAt →
    step.command.kind.places = some file ∨ file ∈ step.command.kind.covers →
    step.fates (.read file) ≠ .fails
  whole : lifted desk.stops step.command = [] ∨
    Auditable classes step.command ∧ Unhindered step.fates ∨
    (∀ file, step.fates (.remove file) ≠ .done) ∨
    lifted desk.stops step.command = [.pauseEntries] ∧
      desk.stops.files .pauseEntries ≠ some .link ∧ CanPutBack step.fates

section

variable {classes : CharacterClasses} {desk : DeskState} {step : Step} {file : StopFile}
  {instant : ℤ}

theorem mem_lifted {stops : Stops} {command : StopCommand} (holds : stops.Holds file instant)
    (covered : file ∈ command.kind.covers)
    (notNewer : stops.newer file command.issuedAt = false) : file ∈ lifted stops command := by
  refine List.mem_filter.mpr ⟨covered, ?_⟩
  rw [holds.stands, notNewer]
  rfl

variable {ending : Ending StopError Facts}

/-- **What a file holds it holds after a command, unless that is a covering resume that is
not older.** -/
theorem holds_step (undisturbed : Undisturbed classes desk step)
    (holds : desk.stops.Holds file instant) {later : Stops}
    (ran : dispatch classes step.command step.now desk.stops step.fates = (ending, later))
    (older : (∃ facts, ending = .returned facts) → file ∈ step.command.kind.covers →
      step.command.issuedAt < instant) : later.Holds file instant := by
  cases placed : step.command.kind.places with
  | some placing =>
    have stamps : Stamps desk.stops placing step.command.issuedAt step.fates ending later := by
      have ended : Ends (dispatch classes step.command step.now) desk.stops step.fates _ :=
        ends_dispatch_stop placed
      rw [Ends, ran] at ended
      exact ended
    by_cases same : file = placing
    · subst same
      exact stamps.held (fun isNewer => undisturbed.reads _ isNewer (.inl placed)) instant holds
    · exact holds.congr (stamps.others file same)
  | none =>
    have lifts : Lifts desk.stops step.command.kind.covers step.command.issuedAt
        (Auditable classes step.command) step.fates ending later := by
      have ended : Ends (dispatch classes step.command step.now) desk.stops step.fates _ :=
        ends_dispatch_resume placed
      rw [Ends, ran] at ended
      exact ended
    by_cases covered : file ∈ step.command.kind.covers
    · cases isNewer : desk.stops.newer file step.command.issuedAt with
      | true =>
        have reads := undisturbed.reads file isNewer (.inr covered)
        exact holds.congr (lifts.newer file isNewer reads)
      | false =>
        have notReturned : ¬ ∃ facts, ending = .returned facts := by
          intro returned
          have found := holds.newer (older returned covered)
          rw [isNewer] at found
          cases found
        have isLifted := mem_lifted holds covered isNewer
        rcases undisturbed.whole with none | ⟨valid, free⟩ | never | ⟨only, notLink, can⟩
        · rw [none] at isLifted
          cases isLifted
        · exact (notReturned (lifts.returns valid free)).elim
        · exact holds.congr (by rw [lifts.unremoved never])
        · rw [only] at isLifted
          obtain rfl := List.mem_singleton.mp isLifted
          rcases lifts.putBack can notLink with returned | same
          · exact (notReturned returned).elim
          · exact holds.congr same
    · exact holds.congr (lifts.others file covered)

theorem applied_stop_holds (regular : desk.stops.Regular) {later : Stops}
    (ran : dispatch classes step.command step.now desk.stops step.fates =
      (ending, later)) (placed : step.command.kind.places = some file)
    (applied : ∃ facts, ending = .returned facts) : later.Holds file step.command.issuedAt := by
  have ended : Ends (dispatch classes step.command step.now) desk.stops step.fates _ :=
    ends_dispatch_stop placed
  rw [Ends, ran] at ended
  obtain ⟨facts, returned⟩ := applied
  exact ended.holds regular facts returned

/-- The commands write nothing but records. -/
theorem regular_step (regular : desk.stops.Regular) :
    (dispatch classes step.command step.now desk.stops step.fates).2.Regular := by
  cases placed : step.command.kind.places with
  | some placing =>
    have ended : Ends (dispatch classes step.command step.now) desk.stops step.fates _ :=
      ends_dispatch_stop placed
    exact ended.regular regular
  | none =>
    have ended : Ends (dispatch classes step.command step.now) desk.stops step.fates _ :=
      ends_dispatch_resume placed
    exact ended.regular regular

theorem newestStopRecorded_step (undisturbed : Undisturbed classes desk step)
    (regular : desk.stops.Regular) (recorded : NewestStopRecorded desk) {next : DeskState}
    (taken : (stopSystem classes).step desk step = some next) : NewestStopRecorded next := by
  cases taken
  intro file before stop after split places applied older
  rcases ran : dispatch classes step.command step.now desk.stops step.fates with ⟨ending, later⟩
  simp only [DeskState.next, ran] at split older ⊢
  rcases List.eq_nil_or_concat after with rfl | ⟨between, last, rfl⟩
  · obtain ⟨-, same⟩ := List.append_inj' split rfl
    obtain rfl := List.singleton_inj.mp same
    exact applied_stop_holds regular ran places applied
  · rw [List.concat_eq_append, ← List.cons_append, ← List.append_assoc] at split
    obtain ⟨sameLog, same⟩ := List.append_inj' split rfl
    obtain rfl := List.singleton_inj.mp same
    have holds := recorded file before stop between sameLog places applied fun resume isMember =>
      older resume (by rw [List.concat_eq_append]; exact List.mem_append_left _ isMember)
    exact holds_step undisturbed holds ran fun returned covered =>
      older ⟨step.command, ending⟩
        (by rw [List.concat_eq_append]; exact List.mem_concat_self)
        returned covered

/-- What every undisturbed command keeps. -/
structure StopsKept (desk : DeskState) : Prop where
  regular : desk.stops.Regular
  recorded : NewestStopRecorded desk

theorem stopsKept_of_reached
    (reached : (stopSystem classes).ReachableUnder (Undisturbed classes) desk) :
    StopsKept desk := by
  refine reached.invariant ?_ ?_
  · rintro start ⟨absent, empty⟩
    refine ⟨fun file content stands => ?_, fun file before stop after split => ?_⟩
    · rw [absent file] at stands
      cases stands
    · rw [empty] at split
      exact absurd split.symm (List.append_ne_nil_of_right_ne_nil before (List.cons_ne_nil _ _))
  · intro start step next kept undisturbed taken
    refine ⟨?_, newestStopRecorded_step undisturbed kept.regular kept.recorded taken⟩
    cases taken
    exact regular_step kept.regular

end

/-! ## A halt and two resumes -/

def asciiClasses : CharacterClasses where
  isSpace := Char.isWhitespace
  isPrintable ch := ' ' ≤ ch && ch ≤ '~'

def absentStops : Stops :=
  ⟨fun _ => none, []⟩

def haltSample : StopCommand where
  kind := .halt
  idempotencyKey := "halt-sample"
  issuedBy := ⟨"loopback-operator", .loopback⟩
  reason := "look at this"
  issuedAt := 1

/-- A resume by an owner whose address is longer than a label may be. -/
def resumeSample : StopCommand where
  kind := .resumeAll
  idempotencyKey := "resume-sample"
  issuedBy := ⟨String.ofList (List.replicate 190 'o') ++ "@example.com", .family⟩
  reason := ""
  issuedAt := 2

/-- Nothing fails. -/
def allDone : StopOp → Fate :=
  fun _ => .done

def haltStep : Step :=
  ⟨haltSample, 2, allDone⟩

def resumeStep : Step :=
  ⟨resumeSample, 3, allDone⟩

/-- A resume that was issued before the halt, and comes late. -/
def lateStep : Step :=
  ⟨{ resumeSample with issuedBy := ⟨"loopback-operator", .loopback⟩, issuedAt := 0 }, 3, allDone⟩

def haltedDesk : DeskState :=
  DeskState.next asciiClasses ⟨absentStops, []⟩ haltStep

/-- The desk after a halt that is applied and a resume that is not. -/
def liftedDesk : DeskState :=
  haltedDesk.next asciiClasses resumeStep

/-- **In every run whose commands are undisturbed, a stop stands until a covering resume that
is not older than it is applied, and its file records no earlier time while only older
resumes are.** -/
theorem newer_stop_stands {classes : CharacterClasses} {desk : DeskState}
    (reached : (stopSystem classes).ReachableUnder (Undisturbed classes) desk) :
    StopStands desk ∧ NewestStopRecorded desk := by
  have kept := stopsKept_of_reached reached
  refine ⟨fun file stop isMember places applied noneNewer => ?_, kept.recorded⟩
  obtain ⟨before, after, split⟩ := List.append_of_mem isMember
  refine (kept.recorded file before stop after split places applied ?_).stands
  intro resume later wasApplied covered
  refine not_le.mp (noneNewer resume ?_ wasApplied covered)
  rw [split]
  exact List.mem_append_right before (List.mem_cons_of_mem stop later)

theorem late_resume_keeps_halt :
    StopStands (haltedDesk.next asciiClasses lateStep) ∧
      NewestStopRecorded (haltedDesk.next asciiClasses lateStep) := by
  have start : (stopSystem asciiClasses).ReachableUnder (Undisturbed asciiClasses)
      ⟨absentStops, []⟩ := .initial ⟨fun _ => rfl, rfl⟩
  have halts : Undisturbed asciiClasses ⟨absentStops, []⟩ haltStep :=
    ⟨fun _ _ _ done => (nomatch done), .inl rfl⟩
  have halted : (stopSystem asciiClasses).ReachableUnder (Undisturbed asciiClasses) haltedDesk :=
    .step start halts rfl
  have auditable : Auditable asciiClasses lateStep.command := by
    rw [Auditable]
    decide +kernel
  have resumes : Undisturbed asciiClasses haltedDesk lateStep :=
    ⟨fun _ _ _ done => (nomatch done),
      .inr (.inl ⟨auditable, fun _ dies => (nomatch dies), fun _ => rfl, rfl, rfl⟩)⟩
  exact newer_stop_stands (.step halted resumes rfl)

/-- The address of the owner makes a label that is too long. -/
theorem validated_resumeSample :
    validated asciiClasses (actorLabel resumeSample.issuedBy) resumeSample.reason
      (some resumeSample.idempotencyKey) =
        some (.invalid "actor must be a non-empty label") := by
  refine if_pos (.inr ?_)
  have domain : "@example.com".length = 12 := by decide
  simp only [actorLabel, resumeSample, String.length_append, String.length_ofList,
    List.length_replicate, maxActorChars]
  omega

theorem resumeAll_resumeSample :
    resumeAll asciiClasses resumeSample 3 haltedDesk.stops allDone =
      (.raised (.invalid "actor must be a non-empty label"),
        haltedDesk.stops.put .halt none) := by
  have refused : resumeEntries asciiClasses (actorLabel resumeSample.issuedBy)
      resumeSample.reason 3 (some resumeSample.idempotencyKey) (some resumeSample.issuedAt) =
        raise (.invalid "actor must be a non-empty label") := by
    rw [resumeEntries, validated_resumeSample]
    rfl
  rw [resumeAll, refused]
  rfl

/-- **A resume that the audit refuses has lifted the halt before.** -/
theorem lifted_by_failed_resume : ¬ ∀ classes desk, (stopSystem classes).Reachable desk →
    StopStands desk ∧ NewestStopRecorded desk := by
  intro always
  have start : (stopSystem asciiClasses).Reachable ⟨absentStops, []⟩ :=
    .initial ⟨fun _ => rfl, rfl⟩
  have halted : (stopSystem asciiClasses).Reachable haltedDesk := start.next rfl
  have reached : (stopSystem asciiClasses).Reachable liftedDesk := halted.next rfl
  have ended : dispatch asciiClasses resumeStep.command resumeStep.now haltedDesk.stops
      resumeStep.fates = (.raised (.invalid "actor must be a non-empty label"),
        haltedDesk.stops.put .halt none) := resumeAll_resumeSample
  have lifted : liftedDesk.stops.files .halt = none := by
    rw [liftedDesk, DeskState.next, ended]
    rfl
  have applied : (dispatch asciiClasses haltSample 2 absentStops allDone).1 =
      .returned (.killFile .halt true true) := by
    rfl
  have failed : (dispatch asciiClasses resumeStep.command resumeStep.now haltedDesk.stops
      resumeStep.fates).1 = .raised (.invalid "actor must be a non-empty label") := by
    rw [ended]
  have stands := (always asciiClasses liftedDesk reached).1 .halt ⟨haltSample, _⟩
    List.mem_cons_self rfl ⟨_, applied⟩ ?_
  · rw [lifted] at stands
    cases stands
  · intro resume isMember wasApplied covered
    rcases List.mem_cons.mp isMember with rfl | isLast
    · cases covered
    · obtain rfl := List.mem_singleton.mp isLast
      obtain ⟨facts, returned⟩ := wasApplied
      rw [failed] at returned
      cases returned

end TreeOptions.Desk
