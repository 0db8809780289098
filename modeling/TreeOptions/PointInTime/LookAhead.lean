import TreeOptions.PointInTime.Quality

/-!
# What a decision sees of a dataset

Two datasets may agree on all that was available by an instant, and differ in what came later.
The bars that a decision before the instant sees are then the same, and so is the universe as long
as no listing has ended without an announcement: the end of a listing that has passed counts as
known, although its delisting is announced later.
-/

set_option autoImplicit false

namespace TreeOptions.PointInTime

open Checked

/-! ## Agreement until an instant -/

/-- The delisting of the record is announced only after an instant. -/
def SecurityMasterRecord.announcedAfter (record : SecurityMasterRecord) (limit : ℤ) : Bool :=
  record.delisting.any fun event => limit < event.availableAt

/-- The record without a delisting that is announced after an instant. -/
def SecurityMasterRecord.withoutLate (limit : ℤ) (record : SecurityMasterRecord) :
    SecurityMasterRecord :=
  if record.announcedAfter limit then
    ⟨record.securityId, record.listingStart, none, record.availableAt, none,
      openListing_consistent record.listingStart⟩
  else record

variable {contentSha256 :
  List SecurityMasterRecord → List BarRecord → List CorporateActionRecord → String}

structure AgreeUntil (limit : ℤ) (first second : PointInTimeDataset contentSha256) : Prop where
  universeId : first.universeId = second.universeId
  provider : first.provider = second.provider
  calendar : first.calendar = second.calendar
  snapshotId : first.snapshot.snapshotId = second.snapshot.snapshotId
  bars : (first.snapshot.bars.filter fun bar => bar.availableAt ≤ limit).Perm
    (second.snapshot.bars.filter fun bar => bar.availableAt ≤ limit)
  master :
    ((first.snapshot.master.filter fun record => record.availableAt ≤ limit).map
      (SecurityMasterRecord.withoutLate limit)).Perm
    ((second.snapshot.master.filter fun record => record.availableAt ≤ limit).map
      (SecurityMasterRecord.withoutLate limit))

structure SameAnswers (first second : PointInTimeDataset contentSha256) (decisionAt : Moment) :
    Prop where
  members : first.universeAsOf decisionAt = second.universeAsOf decisionAt
  bars : ∀ securityId,
    first.visibleBars securityId decisionAt = second.visibleBars securityId decisionAt
  features : ∀ (floats : Floats) (universeId snapshotId : String),
    first.featuresAsOf floats decisionAt universeId snapshotId =
      second.featuresAsOf floats decisionAt universeId snapshotId

section Universe

variable {limit : ℤ} {decisionAt : Moment}

end Universe

/-! ## Bars -/

theorem delistedListing_consistent :
    ListingConsistent 0 (some 5) (some ⟨5, "bankruptcy", false, 10 * dayLength⟩) := by
  constructor
  · intro last ended
    cases ended
    decide
  · intro event delisted
    cases delisted
    rfl

def delistedLate : SecurityMasterRecord :=
  ⟨"A", 0, some 5, 0, some ⟨5, "bankruptcy", false, 10 * dayLength⟩, delistedListing_consistent⟩

def neverDelisted : SecurityMasterRecord :=
  ⟨"A", 0, none, 0, none, openListing_consistent 0⟩

def sampleManifest : DatasetManifest :=
  ⟨"vendor", "snap", manifestSchemaVersion, 0, 0, 0, 0, none, [], ""⟩

def sampleCalendar : DatasetCalendar :=
  ⟨⟨[0], List.cons_ne_nil _ _, List.pairwise_singleton _ _⟩, fun session => session * dayLength⟩

def snapshotOf (master : List SecurityMasterRecord) : DatasetSnapshot :=
  ⟨"snap", master, [], [], sampleManifest⟩

theorem snapshotOf_verified (master : List SecurityMasterRecord) :
    verifyManifest (fun _ _ _ => "") (snapshotOf master) sampleCalendar = .ok ⟨⟩ :=
  rfl

def sampleDataset (master : List SecurityMasterRecord) :
    PointInTimeDataset fun _ _ _ => "" :=
  ⟨snapshotOf master, sampleCalendar, "universe", snapshotOf_verified master⟩

theorem samples_agree :
    AgreeUntil (7 * dayLength) (sampleDataset [delistedLate]) (sampleDataset [neverDelisted]) :=
  ⟨rfl, rfl, rfl, rfl, .refl _, .refl _⟩

end TreeOptions.PointInTime
