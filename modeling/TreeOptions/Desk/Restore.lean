import TreeOptions.Desk.Backup

/-!
# What a restore brings back

A restore that returns has put every file of its manifest at one of two places: below `archive/`
where the path predicate holds it back, at its own path otherwise. One that fails or dies leaves
its destination as it was.

The predicate covers the owner's record, the mandate of the desk, the permits and the requests. It
does not cover the mandates of single trades, nor the commands: a backup that holds one of them
without its being spent brings it back to life (`restore_inert_iff`).
-/

set_option autoImplicit false

namespace TreeOptions.Desk

open Checked Durable

/-! ## Authority by its path -/

def isHex (c : Char) : Bool :=
  c.isDigit || (decide ('a' ≤ c) && decide (c ≤ 'f'))

/-- The shape of a command's key, `8-4-4-4-12` hexadecimal digits. -/
def isCommandKey (key : List Char) : Bool :=
  key.length = 36 && (List.range 36).all fun position =>
    if position ∈ [8, 13, 18, 23] then key[position]? = some '-' else key[position]?.any isHex

/-- A command that is queued or claimed. What is answered is moved to `done/`. -/
def isCommand (path : RelPath) : Bool :=
  match path with
  | ["commands", name] =>
    isCommandKey (name.toList.take 36) &&
      (name.toList.drop 36 = ".json".toList || name.toList.drop 36 = ".claimed.json".toList)
  | _ => false

/-- The mandate of a trade whose permit was not minted, granted or retired. -/
def isTradeMandate (path : RelPath) : Bool :=
  match path with
  | ["mandates", name] => endsWith name ".json" && !endsWith name ".consumed.json"
  | ["mandates", "retired", name] => endsWith name ".json"
  | _ => false

/-- The record of an owner, a request, a command, the mandate of the desk or of a trade, a
permit. -/
def isAuthority (path : RelPath) : Bool :=
  match path with
  | key :: tail =>
    if key = BackupRoot.run.key then
      tail = ["owner.json"] || tail.head? = some "requests" || isCommand tail
    else
      key = BackupRoot.supervised.key &&
        (tail = ["mandate.json"] || tail.head? = some "permits" || isTradeMandate tail)
  | [] => false

/-- The stop files and the tombstone of a revoked mandate. -/
def restrictions : List RelPath :=
  [["run", "HALT"], ["supervised", "HALT"], ["supervised", "mandate.revoked.json"]]

variable {tail : RelPath}

theorem endsWith_json_of_isCommand (command : isCommand tail = true) :
    tail.length = 2 ∧ endsWith (tail.getLastD "") ".json" = true := by
  unfold isCommand at command
  split at command
  case h_1 name =>
    refine ⟨rfl, ?_⟩
    rw [Bool.and_eq_true, Bool.or_eq_true, decide_eq_true_eq, decide_eq_true_eq] at command
    have isLast : ["commands", name].getLastD "" = name := rfl
    rw [isLast, endsWith, List.isSuffixOf_iff_suffix]
    have dropped := List.drop_suffix 36 name.toList
    rcases command.2 with plain | claimed
    · exact plain ▸ dropped
    · have ending : ".json".toList <:+ ".claimed.json".toList := by decide
      exact ending.trans (claimed ▸ dropped)
  case h_2 => cases command

theorem endsWith_json_of_isTradeMandate (mandate : isTradeMandate tail = true) :
    tail.length ≠ 1 ∧ endsWith (tail.getLastD "") ".json" = true := by
  unfold isTradeMandate at mandate
  split at mandate
  case h_1 name =>
    rw [Bool.and_eq_true] at mandate
    exact ⟨by simp, mandate.1⟩
  case h_2 name => exact ⟨by simp, mandate⟩
  case h_3 => cases mandate

variable {path : RelPath}

/-- A document is not an unfinished write. -/
theorem not_excluded {root : BackupRoot} (below : path.length ≠ 1)
    (ends : endsWith (path.getLastD "") ".json" = true) : excluded root path = false := by
  have finished : endsWith (path.getLastD "") ".tmp" = false := by
    rw [Bool.eq_false_iff, ne_eq, endsWith, List.isSuffixOf_iff_suffix]
    rw [endsWith, List.isSuffixOf_iff_suffix] at ends
    intro temporary
    have shorter := List.suffix_of_suffix_length_le temporary ends (by decide)
    exact absurd shorter (by decide)
  simp only [excluded, finished, below, decide_false, Bool.and_false, Bool.false_and,
    Bool.or_false]

/-- **The path predicate misses the commands and the mandates of single trades**, and no other
authority. -/
theorem authority_of_not_quarantined (active : quarantined path = false)
    (authority : isAuthority path = true) :
    ∃ tail, (path = BackupRoot.run.key :: tail ∧ isCommand tail = true) ∨
      (path = BackupRoot.supervised.key :: tail ∧ isTradeMandate tail = true) := by
  unfold isAuthority at authority
  split at authority
  case h_2 => cases authority
  case h_1 key tail =>
    refine ⟨tail, ?_⟩
    split at authority
    case isTrue isRun =>
      subst isRun
      rw [Bool.or_eq_true, Bool.or_eq_true, decide_eq_true_eq, decide_eq_true_eq] at authority
      rcases authority with (rfl | request) | command
      · simp [quarantined] at active
      · obtain ⟨rest, rfl⟩ := List.head?_eq_some_iff.mp request
        simp [quarantined] at active
      · exact .inl ⟨rfl, command⟩
    case isFalse =>
      rw [Bool.and_eq_true, Bool.or_eq_true, Bool.or_eq_true, decide_eq_true_eq,
        decide_eq_true_eq, decide_eq_true_eq] at authority
      obtain ⟨rfl, authority⟩ := authority
      rcases authority with (rfl | permit) | mandate
      · exact absurd active (by decide)
      · obtain ⟨rest, rfl⟩ := List.head?_eq_some_iff.mp permit
        simp [quarantined, BackupRoot.key] at active
      · exact .inr ⟨rfl, mandate⟩

theorem quarantined_command (command : isCommand tail = true) :
    quarantined (BackupRoot.run.key :: tail) = false := by
  unfold isCommand at command
  split at command
  case h_1 => simp [quarantined]
  case h_2 => cases command

theorem quarantined_tradeMandate (mandate : isTradeMandate tail = true) :
    quarantined (BackupRoot.supervised.key :: tail) = false := by
  unfold isTradeMandate at mandate
  split at mandate
  case h_1 => simp [quarantined, BackupRoot.key]
  case h_2 => simp [quarantined, BackupRoot.key]
  case h_3 => cases mandate

/-! ## The snapshot -/

/-- The file that a walk takes of an entry. -/
def taken (root : BackupRoot) (entry : RelPath × Node) : Option (RelPath × Bytes) :=
  match entry.2 with
  | .file content =>
    if excluded root entry.1 then none else some (root.key :: entry.1, content)
  | .linkedDirectory | .irregular => none

/-- **A walk takes every entry that is not excluded, and they are all regular files.** -/
theorem walk_eq_ok {root : BackupRoot} {entries : List (RelPath × Node)}
    {found : List (RelPath × Bytes)} (walked : walk root entries = .ok found) :
    found = entries.filterMap (taken root) ∧
      ∀ entry ∈ entries, excluded root entry.1 = false →
        ∃ content, entry.2 = .file content := by
  have started : ([] : List (RelPath × Bytes)) = ([] : List (RelPath × Node)).filterMap (taken root) ∧
      ∀ entry ∈ ([] : List (RelPath × Node)), excluded root entry.1 = false →
        ∃ content, entry.2 = .file content := ⟨rfl, by simp⟩
  refine foldlM_invariant (fun done found => found = done.filterMap (taken root) ∧
    ∀ entry ∈ done, excluded root entry.1 = false → ∃ content, entry.2 = .file content)
    ?_ started walked
  rintro done entry found next ⟨rfl, regular⟩ stepped
  rw [walkEntry] at stepped
  have others : ∀ holds : RelPath × Node → Prop, (∀ other ∈ done, holds other) → holds entry →
      ∀ other ∈ done ++ [entry], holds other := fun _ before here =>
    List.forall_mem_append.mpr ⟨before, List.forall_mem_singleton.mpr here⟩
  rw [List.filterMap_append, List.filterMap_cons, List.filterMap_nil, taken]
  cases node : entry.2 with
  | linkedDirectory =>
    simp only [node] at stepped
    cases stepped
  | file content =>
    simp only [node] at stepped ⊢
    cases stepped
    refine ⟨?_, others _ regular fun _ => ⟨content, node⟩⟩
    split
    case isTrue => rw [List.append_nil]
    case isFalse => rfl
  | irregular =>
    simp only [node] at stepped ⊢
    split at stepped
    case isFalse => cases stepped
    case isTrue out =>
      cases stepped
      exact ⟨(List.append_nil _).symm, others _ regular fun active => by
        rw [out] at active
        cases active⟩

variable {sha256 : Bytes → String} {backup : Backup} {manifest : Manifest} {live : LiveRoots}
  {dest : RelPath} {takenAt : ℤ} {ownerEpoch : Option String} {busy : Bool}

/-- **The manifest of a snapshot lists the regular files of both roots** that are not excluded. -/
theorem mem_files_of_snapshot
    (snapped : snapshot sha256 live dest takenAt ownerEpoch busy = .ok backup) :
    ∃ manifest, backup.manifest = some manifest ∧
      (∀ tail, BackupRoot.run.key :: tail ∈ manifest.files.map ManifestEntry.path ↔
        ∃ entry ∈ live.run, entry.1 = tail ∧ excluded .run tail = false) ∧
      ∀ tail, BackupRoot.supervised.key :: tail ∈ manifest.files.map ManifestEntry.path ↔
        ∃ entry ∈ live.supervised, entry.1 = tail ∧ excluded .supervised tail = false := by
  rw [snapshot] at snapped
  simp only [refuse_bind_eq_ok] at snapped
  obtain ⟨-, -, snapped⟩ := snapped
  obtain ⟨run, walkedRun, snapped⟩ := bind_eq_ok.mp snapped
  obtain ⟨-, snapped⟩ := refuse_bind_eq_ok.mp snapped
  obtain ⟨supervised, walkedSupervised, snapped⟩ := bind_eq_ok.mp snapped
  cases snapped
  refine ⟨_, rfl, ?_⟩
  have paths : ((run ++ supervised).map (entryOf sha256)).map ManifestEntry.path =
      run.map Prod.fst ++ supervised.map Prod.fst := by
    rw [List.map_map, List.map_append]
    rfl
  have below : ∀ root entries found, walk root entries = .ok found → ∀ path,
      path ∈ found.map Prod.fst ↔
        ∃ tail, path = root.key :: tail ∧ ∃ entry ∈ entries, entry.1 = tail ∧
          excluded root tail = false := by
    intro root entries found walked path
    obtain ⟨rfl, regular⟩ := walk_eq_ok walked
    rw [List.mem_map]
    constructor
    · rintro ⟨file, isMember, rfl⟩
      obtain ⟨entry, isEntry, select⟩ := List.mem_filterMap.mp isMember
      rw [taken] at select
      split at select
      case h_1 =>
        split at select
        case isTrue => cases select
        case isFalse active =>
          cases select
          exact ⟨entry.1, rfl, entry, isEntry, rfl, Bool.eq_false_iff.mpr active⟩
      all_goals cases select
    · rintro ⟨tail, rfl, entry, isEntry, rfl, active⟩
      obtain ⟨content, isFile⟩ := regular entry isEntry active
      refine ⟨(root.key :: entry.1, content), List.mem_filterMap.mpr ⟨entry, isEntry, ?_⟩, rfl⟩
      rw [taken, isFile]
      simp [active]
  simp only [paths, List.mem_append, below _ _ _ walkedRun, below _ _ _ walkedSupervised]
  have distinct : BackupRoot.run.key ≠ BackupRoot.supervised.key := by decide
  constructor
  · intro tail
    simp [distinct]
  · intro tail
    simp [distinct.symm]

/-! ## Verification -/

/-- A path below one of the two roots. -/
def Rooted (path : RelPath) : Prop :=
  path.head? ∈ [some BackupRoot.run.key, some BackupRoot.supervised.key]

/-- A listed file is there, with the hash that is listed. -/
structure Verified (sha256 : Bytes → String) (backup : Backup) (entry : ManifestEntry) : Prop where
  rooted : Rooted entry.path
  isThere : ∃ content, contentOf backup entry.path = some content ∧
    sha256 content = entry.sha256

/-- **A backup that verifies has exactly the files that its manifest lists.** -/
theorem verify_eq_ok (verified : verify sha256 backup = .ok manifest) :
    backup.manifest = some manifest ∧ (∀ entry ∈ manifest.files, Verified sha256 backup entry) ∧
      ∀ path content, contentOf backup path = some content →
        path ∈ manifest.files.map ManifestEntry.path := by
  rw [verify] at verified
  split at verified
  case h_1 => cases verified
  case h_2 manifest' isManifest =>
    obtain ⟨listed, folded, verified⟩ := bind_eq_ok.mp verified
    obtain ⟨complete, same⟩ := refuse_bind_eq_ok.mp verified
    cases same
    have started : ([] : List RelPath) = ([] : List ManifestEntry).map ManifestEntry.path ∧
        ∀ entry ∈ ([] : List ManifestEntry), Verified sha256 backup entry := ⟨rfl, by simp⟩
    have each := foldlM_invariant (fun done listed => listed = done.map ManifestEntry.path ∧
      ∀ entry ∈ done, Verified sha256 backup entry) ?_ started folded
    · rw [List.nil_append] at each
      refine ⟨isManifest, each.2, ?_⟩
      intro path content isContent
      rw [← each.1]
      by_contra unlisted
      refine complete (List.any_eq_true.mpr ⟨path, Directory.mem_names.mpr ?_,
        decide_eq_true unlisted⟩)
      rw [contentOf] at isContent
      split at isContent
      case h_1 found =>
        rw [found]
        rfl
      case h_2 => cases isContent
    · rintro done entry listed next ⟨rfl, before⟩ stepped
      rw [verifyEntry] at stepped
      obtain ⟨_, isPath, stepped⟩ := bind_eq_ok.mp stepped
      simp only [refuse_bind_eq_ok] at stepped
      obtain ⟨-, -, stepped⟩ := stepped
      rw [manifestPath] at isPath
      simp only [refuse_bind_eq_ok] at isPath
      obtain ⟨-, -, isPath⟩ := isPath
      have rooted := (not_or.mp (refuse_eq_ok.mp isPath)).2
      split at stepped
      case h_1 => cases stepped
      case h_2 content isContent =>
        obtain ⟨matched, same⟩ := refuse_bind_eq_ok.mp stepped
        cases same
        refine ⟨by rw [List.map_append, List.map_singleton], ?_⟩
        exact List.forall_mem_append.mpr ⟨before,
          List.forall_mem_singleton.mpr
            ⟨not_not.mp rooted, content, isContent, not_not.mp (not_or.mp matched).1⟩⟩

/-! ## The tree that is built -/

def placeFile (backup : Backup) (tree : RestoredTree) (entry : ManifestEntry) : RestoredTree :=
  match contentOf backup entry.path with
  | some content => tree.write (placeOf entry.path) (.copied content)
  | none => tree

/-- The files of a manifest at their places, and the receipt. -/
def restoredTree (backup : Backup) (manifest : Manifest) (now : ℤ) : RestoredTree :=
  (manifest.files.foldl (placeFile backup) DefaultDict.empty).write [receiptName]
    (.receipt (receiptOf manifest now))

theorem Rooted.ne_archive (rooted : Rooted path) : path ≠ archiveName :: tail := by
  rintro rfl
  simp [Rooted, archiveName, BackupRoot.key] at rooted

theorem placeOf_injective {first second : RelPath} (isFirst : Rooted first)
    (isSecond : Rooted second) (same : placeOf first = placeOf second) : first = second := by
  rw [placeOf, placeOf] at same
  split at same
  case isTrue =>
    split at same
    case isTrue => exact List.tail_eq_of_cons_eq same
    case isFalse => exact absurd same.symm isSecond.ne_archive
  case isFalse =>
    split at same
    case isTrue => exact absurd same isFirst.ne_archive
    case isFalse => exact same

theorem placeOf_ne_receipt (rooted : Rooted path) : placeOf path ≠ [receiptName] := by
  intro same
  rw [placeOf] at same
  split at same
  case isTrue => exact absurd (List.cons.inj same).1 (by decide)
  case isFalse =>
    subst same
    simp [Rooted, receiptName, BackupRoot.key] at rooted

variable {files : List ManifestEntry} {tree : RestoredTree}

theorem placed_of_get {file : RestoredFile}
    (found : (files.foldl (placeFile backup) tree).get path = some file) :
    tree.get path = some file ∨ ∃ entry ∈ files, path = placeOf entry.path := by
  induction files generalizing tree with
  | nil => exact .inl found
  | cons first rest ih =>
    rcases ih found with before | ⟨entry, isMember, same⟩
    · rw [placeFile] at before
      split at before
      case h_1 =>
        rw [Directory.get_write] at before
        split at before
        case isTrue same => exact .inr ⟨first, List.mem_cons_self, same⟩
        case isFalse => exact .inl before
      case h_2 => exact .inl before
    · exact .inr ⟨entry, List.mem_cons_of_mem _ isMember, same⟩

variable {content : Bytes} {entry : ManifestEntry}

theorem get_placeFile (isContent : contentOf backup path = some content) (rooted : Rooted path)
    (others : Rooted entry.path) (found : tree.get (placeOf path) = some (.copied content)) :
    (placeFile backup tree entry).get (placeOf path) = some (.copied content) := by
  rw [placeFile]
  split
  case h_2 => exact found
  case h_1 other isOther =>
    rw [Directory.get_write]
    split
    case isFalse => exact found
    case isTrue same =>
      rw [placeOf_injective rooted others same, isOther] at isContent
      rw [Option.some.inj isContent]

theorem get_placed_of_get (isContent : contentOf backup path = some content) (rooted : Rooted path)
    (others : ∀ entry ∈ files, Rooted entry.path)
    (found : tree.get (placeOf path) = some (.copied content)) :
    (files.foldl (placeFile backup) tree).get (placeOf path) = some (.copied content) := by
  induction files generalizing tree with
  | nil => exact found
  | cons first rest ih =>
    exact ih (List.forall_mem_cons.mp others).2
      (get_placeFile isContent rooted (others first List.mem_cons_self) found)

/-- **Every listed file is at its place.** -/
theorem get_placed (isMember : entry ∈ files)
    (isContent : contentOf backup entry.path = some content)
    (rooted : ∀ entry ∈ files, Rooted entry.path) :
    (files.foldl (placeFile backup) tree).get (placeOf entry.path) = some (.copied content) := by
  induction files generalizing tree with
  | nil => cases isMember
  | cons first rest ih =>
    have others := (List.forall_mem_cons.mp rooted).2
    rw [List.foldl_cons]
    rcases List.mem_cons.mp isMember with rfl | isLater
    · have placed : (placeFile backup tree entry).get (placeOf entry.path) =
          some (.copied content) := by
        simp [placeFile, isContent]
      exact get_placed_of_get isContent (rooted entry List.mem_cons_self) others placed
    · exact ih isLater others

/-! ## The restore -/

variable {into : RelPath} {liveRoots : List RelPath} {now : ℤ} {destination : Destination}
  {fates : RestoreOp → Fate}

def Untouched (before after : Destination) : Prop :=
  after.target = before.target

theorem Untouched.trans {before middle after : Destination} (first : Untouched before middle)
    (second : Untouched middle after) : Untouched before after :=
  Eq.trans second first

/-- The tree beside an untouched destination. -/
def Builds (before : Destination) (tree : RestoredTree) (after : Destination) : Prop :=
  Untouched before after ∧ after.building = some tree

theorem ends_copyFile (building : destination.building = some tree) :
    Ends (copyFile sha256 backup entry) destination fates (Safely (Untouched destination)
      fun _ => Builds destination (placeFile backup tree entry)) := by
  rw [copyFile]
  refine ends_bind (ends_check ?_ fun _ _ => rfl)
  intro content isContent
  have there : contentOf backup entry.path = some content := by
    split at isContent
    case h_1 content' found =>
      cases isContent
      exact found
    case h_2 => cases isContent
  refine Ends.next (ends_bind (ends_operate ?_ (fun _ => rfl) fun _ => rfl))
  intro _
  refine Ends.next (ends_refuseIf (fun _ => rfl) fun _ => ⟨rfl, ?_⟩)
  rw [Destination.put, building, placeFile, there]
  rfl

theorem ends_copyFiles (building : destination.building = some tree) :
    Ends (copyFiles sha256 backup files) destination fates (Safely (Untouched destination)
      fun _ => Builds destination (files.foldl (placeFile backup) tree)) := by
  induction files generalizing destination tree with
  | nil => exact ends_pure ⟨rfl, building⟩
  | cons entry rest ih =>
    rw [copyFiles]
    refine ends_bind_safely (ends_copyFile building) ?_
    rintro ⟨⟩ later ⟨untouched, built⟩
    exact (ih built).weaken (fun _ => untouched.trans)
      fun _ _ after => ⟨untouched.trans after.1, after.2⟩

/-- **The tree is built beside the destination.** -/
theorem ends_buildRestore (building : destination.building = some DefaultDict.empty) :
    Ends (buildRestore sha256 backup manifest now) destination fates
      (Safely (Untouched destination)
        fun _ => Builds destination (restoredTree backup manifest now)) := by
  rw [buildRestore]
  refine ends_bind_safely (ends_copyFiles building) ?_
  rintro ⟨⟩ later ⟨untouched, built⟩
  refine ends_bind (ends_operate ?_ (fun _ => untouched) fun _ => untouched)
  intro _
  refine Ends.next (ends_bind (ends_operate ?_ (fun _ => untouched) fun _ => untouched))
  intro _
  refine Ends.next (ends_bind (ends_operate ?_ (fun _ => untouched) fun _ => untouched))
  intro _
  refine Ends.next (ends_pure ⟨untouched, ?_⟩)
  change later.building.map _ = _
  rw [built]
  rfl

/-- Cleaning up is about the tree beside the destination, and always raises. -/
theorem ends_cleanUp {cause : BackupError} :
    Ends (cleanUp cause) destination fates (Safely (Untouched destination) fun _ _ => False) := by
  rw [cleanUp]
  have raises : ∀ later, Untouched destination later →
      Ends (do
        let left ← observe
        raise (if left.building.isSome then .restoreFailedPartial cause
          else .restoreFailedCleaned cause) : Durable RestoreOp Destination BackupError Receipt)
        later fates (Safely (Untouched destination) fun _ _ => False) :=
    fun later untouched => ends_bind (ends_observe (Ends.next untouched))
  refine ends_bind (ends_attempt (ends_operate (fun _ => ?_) (fun _ => ?_) fun _ => rfl))
  · exact Ends.next (raises _ rfl)
  · exact Ends.handles (ends_pure (Ends.next (raises _ rfl)))

theorem ends_publish (building : destination.building = some DefaultDict.empty) :
    Ends (attempt (publish sha256 backup manifest now) cleanUp) destination fates
      (Safely (Untouched destination)
        fun _ after => after.target = .occupied (restoredTree backup manifest now)) := by
  have cleans : ∀ cause later, Untouched destination later →
      Ends (cleanUp cause) later fates (Safely (Untouched destination) fun _ after =>
        after.target = .occupied (restoredTree backup manifest now)) :=
    fun cause later untouched => ends_cleanUp.weaken (fun _ => untouched.trans) nofun
  refine ends_attempt ?_
  rw [publish]
  refine ends_bind ((ends_buildRestore building).mono ?_)
  intro ending later built
  cases ending with
  | raised error => exact Ends.handles (cleans error later built)
  | died => exact built
  | returned receipt =>
    obtain ⟨untouched, built⟩ := built
    refine Ends.next (ends_bind (ends_operate (fun _ => ?_) (fun _ => ?_) fun _ => untouched))
    · refine Ends.next (ends_pure ?_)
      change (commit later).target = _
      rw [commit, built]
    · exact Ends.handles (cleans _ later untouched)

/-- The destination holds the tree of a backup that verifies. -/
def Holds (sha256 : Bytes → String) (backup : Backup) (now : ℤ) (after : Destination) : Prop :=
  ∃ manifest, verify sha256 backup = .ok manifest ∧
    after.target = .occupied (restoredTree backup manifest now)

/-- What a restore leaves. One that dies has not begun to publish its tree, or has published it. -/
def Leaving (sha256 : Bytes → String) (backup : Backup) (now : ℤ) (before : Destination) :
    Ending BackupError Receipt → Destination → Prop
  | .returned _, after => Holds sha256 backup now after
  | .raised _, after => Untouched before after
  | .died, after => Untouched before after ∨ Holds sha256 backup now after

/-- **A restore that returns has put its tree at the destination; one that fails leaves it.** -/
theorem ends_restore :
    Ends (restore sha256 backup into liveRoots now) destination fates
      (Leaving sha256 backup now destination) := by
  rw [restore]
  refine ends_bind (ends_check (fun manifest verified => ?_) fun _ _ => rfl)
  refine Ends.next (ends_bind (ends_observe (Ends.next ?_)))
  refine ends_bind (ends_check (fun _ _ => ?_) fun _ _ => rfl)
  refine Ends.next (ends_bind (ends_operate (fun _ => ?_) (fun _ => rfl) fun _ => .inl rfl))
  refine Ends.next (ends_bind (ends_operate (fun _ => ?_) (fun _ => rfl) fun _ => .inl rfl))
  refine Ends.next (ends_bind ((ends_publish rfl).mono ?_))
  intro ending later published
  cases ending with
  | raised error => exact published
  | died => exact .inl published
  | returned receipt =>
    have holds : Holds sha256 backup now later := ⟨manifest, verified, published⟩
    have returns : Ends (pure receipt) later fates (Leaving sha256 backup now destination) :=
      ends_pure holds
    refine Ends.next (ends_bind (ends_attempt (ends_operate ?_ ?_ fun _ => .inr holds)))
    · exact fun _ => returns
    · exact fun _ => Ends.handles (ends_pure returns)

/-! ## What is active afterwards -/

/-- No file outside of the archive is authority. -/
def Inert (tree : RestoredTree) : Prop :=
  ∀ path file, tree.get path = some file → path.head? ≠ some archiveName →
    isAuthority path = false

/-- Every restriction of the backup is at its own path. -/
def Restricted (backup : Backup) (tree : RestoredTree) : Prop :=
  ∀ path ∈ restrictions, ∀ content, contentOf backup path = some content →
    tree.get path = some (.copied content)

/-- Every file of the manifest is at one of its two places, with the bytes that are listed. -/
def EachOnce (sha256 : Bytes → String) (manifest : Manifest) (tree : RestoredTree) : Prop :=
  ∀ entry ∈ manifest.files, ∃ content, sha256 content = entry.sha256 ∧
    ((tree.get entry.path = some (.copied content) ∧
        tree.get (archiveName :: entry.path) = none) ∨
      (tree.get entry.path = none ∧
        tree.get (archiveName :: entry.path) = some (.copied content)))

/-- A restore reactivates nothing and loses nothing. -/
def SafelyRestored (sha256 : Bytes → String) (backup : Backup) (after : Destination) : Prop :=
  ∃ manifest tree, backup.manifest = some manifest ∧ after.target = .occupied tree ∧
    Inert tree ∧ Restricted backup tree ∧ EachOnce sha256 manifest tree

/-- A mandate of a trade that is not spent, or a command that is not answered. -/
def HasStandingAuthority (live : LiveRoots) : Prop :=
  (∃ entry ∈ live.run, isCommand entry.1 = true) ∨
    ∃ entry ∈ live.supervised, isTradeMandate entry.1 = true

theorem path_of_restoredTree {file : RestoredFile}
    (found : (restoredTree backup manifest now).get path = some file) :
    path = [receiptName] ∨ ∃ entry ∈ manifest.files, path = placeOf entry.path := by
  rw [restoredTree, Directory.get_write] at found
  split at found
  case isTrue same => exact .inl same
  case isFalse =>
    rcases placed_of_get found with absent | placed
    · cases absent
    · exact .inr placed

theorem get_restoredTree (rooted : ∀ entry ∈ manifest.files, Rooted entry.path)
    (isMember : entry ∈ manifest.files) (isContent : contentOf backup entry.path = some content) :
    (restoredTree backup manifest now).get (placeOf entry.path) = some (.copied content) := by
  rw [restoredTree, Directory.get_write,
    if_neg (placeOf_ne_receipt (rooted entry isMember))]
  exact get_placed isMember isContent rooted

theorem get_restoredTree_of_ne {place : RelPath}
    (rooted : ∀ entry ∈ manifest.files, Rooted entry.path) (isRooted : Rooted path)
    (isPlace : place = path ∨ place = archiveName :: path) (other : place ≠ placeOf path) :
    (restoredTree backup manifest now).get place = none := by
  rw [Option.eq_none_iff_forall_ne_some]
  intro file found
  rcases path_of_restoredTree found with rfl | ⟨entry, isMember, rfl⟩
  · rcases isPlace with rfl | same
    · simp [Rooted, receiptName, BackupRoot.key] at isRooted
    · exact absurd (List.cons.inj same).1 (by decide)
  · have isEntry := rooted entry isMember
    -- the place of an entry is its own path, or the same below the archive
    suffices same : entry.path = path from other (by rw [same])
    rw [placeOf] at isPlace
    split at isPlace
    case isTrue =>
      rcases isPlace with same | same
      · exact absurd same.symm isRooted.ne_archive
      · exact List.tail_eq_of_cons_eq same
    case isFalse =>
      rcases isPlace with same | same
      · exact same
      · exact absurd same isEntry.ne_archive

section

variable (verified : verify sha256 backup = .ok manifest)

include verified

theorem eachOnce_restoredTree : EachOnce sha256 manifest (restoredTree backup manifest now) := by
  obtain ⟨-, each, -⟩ := verify_eq_ok verified
  have rooted := fun entry isMember => (each entry isMember).rooted
  intro entry isMember
  obtain ⟨content, isContent, hashed⟩ := (each entry isMember).isThere
  refine ⟨content, hashed, ?_⟩
  have isRooted := rooted entry isMember
  have placed : (restoredTree backup manifest now).get (placeOf entry.path) =
      some (.copied content) := get_restoredTree rooted isMember isContent
  have absent : ∀ place, (place = entry.path ∨ place = archiveName :: entry.path) →
      place ≠ placeOf entry.path → (restoredTree backup manifest now).get place = none :=
    fun place => get_restoredTree_of_ne rooted isRooted
  rw [placeOf] at placed absent
  split at placed
  case isTrue held =>
    simp only [held, if_true] at absent
    exact .inr ⟨absent _ (.inl rfl) (isRooted.ne_archive), placed⟩
  case isFalse active =>
    simp only [active] at absent
    exact .inl ⟨placed, absent _ (.inr rfl) (Ne.symm isRooted.ne_archive)⟩

theorem restricted_restoredTree : Restricted backup (restoredTree backup manifest now) := by
  obtain ⟨-, each, complete⟩ := verify_eq_ok verified
  intro path isRestriction content isContent
  obtain ⟨entry, isMember, rfl⟩ := List.mem_map.mp (complete path content isContent)
  have active : quarantined entry.path = false := by
    have all : ∀ path ∈ restrictions, quarantined path = false := by decide
    exact all entry.path isRestriction
  have placed : (restoredTree backup manifest now).get (placeOf entry.path) =
      some (.copied content) :=
    get_restoredTree (fun entry isMember => (each entry isMember).rooted) isMember isContent
  rwa [placeOf, active] at placed

theorem inert_iff :
    Inert (restoredTree backup manifest now) ↔ ∀ path ∈ manifest.files.map ManifestEntry.path,
      quarantined path = false → isAuthority path = false := by
  obtain ⟨-, each, -⟩ := verify_eq_ok verified
  have rooted := fun entry isMember => (each entry isMember).rooted
  constructor
  · intro inert path isPath active
    obtain ⟨entry, isMember, rfl⟩ := List.mem_map.mp isPath
    obtain ⟨content, isContent, -⟩ := (each entry isMember).isThere
    have placed : (restoredTree backup manifest now).get (placeOf entry.path) =
        some (.copied content) := get_restoredTree rooted isMember isContent
    rw [placeOf, active] at placed
    refine inert entry.path _ placed ?_
    intro archived
    obtain ⟨tail, same⟩ := List.head?_eq_some_iff.mp archived
    exact (rooted entry isMember).ne_archive same
  · intro missed path file found outside
    rcases path_of_restoredTree found with rfl | ⟨entry, isMember, rfl⟩
    · decide
    · rw [placeOf] at outside ⊢
      split
      case isTrue held =>
        rw [if_pos held] at outside
        exact absurd rfl outside
      case isFalse active =>
        exact missed entry.path (List.mem_map_of_mem isMember) (Bool.eq_false_iff.mpr active)

end

/-- **What a snapshot carries past the path predicate** is what stands in the live roots. -/
theorem hasStandingAuthority_iff
    (snapped : snapshot sha256 live dest takenAt ownerEpoch busy = .ok backup)
    (isManifest : backup.manifest = some manifest) :
    HasStandingAuthority live ↔ ∃ path ∈ manifest.files.map ManifestEntry.path,
      quarantined path = false ∧ isAuthority path = true := by
  obtain ⟨manifest', same, inRun, inSupervised⟩ := mem_files_of_snapshot snapped
  cases isManifest.symm.trans same
  constructor
  · rintro (⟨entry, isEntry, command⟩ | ⟨entry, isEntry, mandate⟩)
    · obtain ⟨length, ends⟩ := endsWith_json_of_isCommand command
      have copied : excluded .run entry.1 = false := not_excluded (by rw [length]; decide) ends
      refine ⟨_, (inRun entry.1).mpr ⟨entry, isEntry, rfl, copied⟩, quarantined_command command, ?_⟩
      simp [isAuthority, command]
    · obtain ⟨length, ends⟩ := endsWith_json_of_isTradeMandate mandate
      have copied : excluded .supervised entry.1 = false := not_excluded length ends
      refine ⟨_, (inSupervised entry.1).mpr ⟨entry, isEntry, rfl, copied⟩,
        quarantined_tradeMandate mandate, ?_⟩
      simp [isAuthority, mandate, BackupRoot.key]
  · rintro ⟨path, isPath, active, authority⟩
    obtain ⟨tail, ⟨rfl, command⟩ | ⟨rfl, mandate⟩⟩ := authority_of_not_quarantined active authority
    · obtain ⟨entry, isEntry, rfl, -⟩ := (inRun tail).mp isPath
      exact .inl ⟨entry, isEntry, command⟩
    · obtain ⟨entry, isEntry, rfl, -⟩ := (inSupervised tail).mp isPath
      exact .inr ⟨entry, isEntry, mandate⟩

theorem safelyRestored_iff {after : Destination}
    (snapped : snapshot sha256 live dest takenAt ownerEpoch busy = .ok backup)
    (holds : Holds sha256 backup now after) :
    SafelyRestored sha256 backup after ↔ ¬ HasStandingAuthority live := by
  obtain ⟨manifest, verified, target⟩ := holds
  obtain ⟨isManifest, -⟩ := verify_eq_ok verified
  rw [hasStandingAuthority_iff snapped isManifest]
  have missed : Inert (restoredTree backup manifest now) ↔
      ¬ ∃ path ∈ manifest.files.map ManifestEntry.path,
        quarantined path = false ∧ isAuthority path = true := by
    rw [inert_iff verified]
    simp
  rw [← missed]
  constructor
  · rintro ⟨manifest', tree, -, isTree, inert, -⟩
    cases Target.occupied.inj (target.symm.trans isTree)
    exact inert
  · intro inert
    exact ⟨manifest, _, isManifest, target, inert, restricted_restoredTree verified,
      eachOnce_restoredTree verified⟩

/-- **A restore reactivates authority exactly where the backup holds the mandate of a trade or a
command that is not spent**; one that fails leaves its destination as it was, and one that dies
leaves it so unless it has published its tree. -/
theorem restore_inert_iff (snapped : snapshot sha256 live dest takenAt ownerEpoch busy = .ok backup)
    (into : RelPath) (liveRoots : List RelPath) (now : ℤ) (destination after : Destination)
    (fates : RestoreOp → Fate) (ending : Ending BackupError Receipt)
    (ran : restore sha256 backup into liveRoots now destination fates = (ending, after)) :
    (∀ receipt, ending = .returned receipt →
        (SafelyRestored sha256 backup after ↔ ¬ HasStandingAuthority live)) ∧
      (∀ error, ending = .raised error → Untouched destination after) ∧
        (ending = .died → Untouched destination after ∨
          (SafelyRestored sha256 backup after ↔ ¬ HasStandingAuthority live)) := by
  have left : Leaving sha256 backup now destination ending after := by
    have ended : Ends (restore sha256 backup into liveRoots now) destination fates
        (Leaving sha256 backup now destination) := ends_restore
    rwa [Ends, ran] at ended
  refine ⟨?_, ?_, ?_⟩
  · rintro receipt rfl
    exact safelyRestored_iff snapped left
  · rintro error rfl
    exact left
  · rintro rfl
    exact left.imp_right (safelyRestored_iff snapped)

/-! ## A mandate that comes back -/

def emptyHash : String :=
  "e3b0c44298fc1c149afbf4c8996fb92427ae41e4649b934ca495991b7852b855"

/-- A desk with its own mandate, a stop file, and the mandate of a trade. All files are empty. -/
def sampleRoots (mandates : List RelPath) : LiveRoots where
  runPath := ["state", "desk-paper"]
  supervisedPath := ["state", "supervised"]
  run := [(["HALT"], .file []), (["owner.json"], .file []), (["runtime.lock"], .file [])]
  supervised := (["mandate.json"], .file []) :: mandates.map fun path => (path, .file [])

/-- The backup of a desk. -/
def sampleBackup (mandates : List RelPath) : Except BackupError Backup :=
  snapshot (fun _ => emptyHash) (sampleRoots mandates) ["state", "desk-backups"] 0 (some "epoch")
    false

/-- What a restore of a backup leaves at a missing destination, where nothing fails. -/
def sampleRestore (backup : Backup) : Ending BackupError Receipt × Destination :=
  restore (fun _ => emptyHash) backup ["scratch"] [] 1 ⟨.missing, none⟩ fun _ => .done

/-- Whether a snapshot is taken and its restore returns. -/
def returns (mandates : List RelPath) : Bool :=
  match sampleBackup mandates with
  | .ok backup =>
    match (sampleRestore backup).1 with
    | .returned _ => true
    | _ => false
  | .error _ => false

theorem exists_of_returns {mandates : List RelPath} (isReturned : returns mandates = true) :
    ∃ backup receipt after, sampleBackup mandates = .ok backup ∧
      sampleRestore backup = (.returned receipt, after) := by
  rw [returns] at isReturned
  split at isReturned
  case h_2 => cases isReturned
  case h_1 backup snapped =>
    split at isReturned
    case h_2 => cases isReturned
    case h_1 receipt ended => exact ⟨backup, receipt, _, snapped, Prod.ext ended rfl⟩

theorem returns_either : returns [["mandates", "intent.consumed.json"]] = true ∧
    returns [["mandates", "intent.json"]] = true := by
  decide +kernel

theorem hasStandingAuthority_sampleRoots {mandates : List RelPath} :
    HasStandingAuthority (sampleRoots mandates) ↔ ∃ path ∈ mandates, isTradeMandate path = true := by
  simp [HasStandingAuthority, sampleRoots, isCommand, isTradeMandate]

/-- The mandate of a trade that is spent stays so. -/
theorem restore_inert_sample :
    ∃ backup receipt after,
      sampleBackup [["mandates", "intent.consumed.json"]] = .ok backup ∧
        sampleRestore backup = (.returned receipt, after) ∧
          SafelyRestored (fun _ => emptyHash) backup after := by
  obtain ⟨backup, receipt, after, snapped, ran⟩ := exists_of_returns returns_either.1
  refine ⟨backup, receipt, after, snapped, ran, ?_⟩
  refine ((restore_inert_iff snapped _ _ _ _ _ _ _ ran).1 receipt rfl).mpr ?_
  rw [hasStandingAuthority_sampleRoots]
  decide

theorem restore_reactivates_mandate :
    ¬ ∀ (live : LiveRoots) (dest : RelPath) (takenAt : ℤ) (ownerEpoch : Option String)
      (busy : Bool) (backup : Backup) (into : RelPath) (liveRoots : List RelPath) (now : ℤ)
      (destination after : Destination) (fates : RestoreOp → Fate) (receipt : Receipt),
      snapshot (fun _ => emptyHash) live dest takenAt ownerEpoch busy = .ok backup →
        restore (fun _ => emptyHash) backup into liveRoots now destination fates =
          (.returned receipt, after) → SafelyRestored (fun _ => emptyHash) backup after := by
  intro inert
  obtain ⟨backup, receipt, after, snapped, ran⟩ := exists_of_returns returns_either.2
  have safe := inert _ _ _ _ _ backup _ _ _ _ after _ receipt snapped ran
  have left : Holds (fun _ => emptyHash) backup 1 after := by
    have ended : Ends (restore (fun _ => emptyHash) backup ["scratch"] [] 1) ⟨.missing, none⟩
        (fun _ => .done) (Leaving (fun _ => emptyHash) backup 1 ⟨.missing, none⟩) := ends_restore
    have same : restore (fun _ => emptyHash) backup ["scratch"] [] 1 ⟨.missing, none⟩
        (fun _ => .done) = (.returned receipt, after) := ran
    rwa [Ends, same] at ended
  refine (safelyRestored_iff snapped left).mp safe ?_
  rw [hasStandingAuthority_sampleRoots]
  decide

end TreeOptions.Desk
