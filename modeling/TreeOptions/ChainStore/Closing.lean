import Mathlib.Data.List.TakeWhile
import TreeOptions.ChainStore.Tiers

/-!
# Closing the books on earlier sessions

A session is closed for a symbol that a run attempted when the symbol has a recorded chain, or is
missing in the session's manifest with a line in the list of gaps. Before that it is noted: what
has no recorded chain has an entry in the manifest, and a line where the entry says missing.

The books of a store are in order when every session below a manifest is closed, or has a line of
its own where no run attempted it, and everything that a run has settled is noted. All the writes
that close the books on earlier sessions, one after another, close what was noted
(`closed_finalizePrior`); after some of them, no session that was closed is open
(`closed_applyAll_made`).
-/

set_option autoImplicit false

namespace TreeOptions.ChainStore

/-! ## What the books say of a session -/

namespace Store

/-- There is a line of a session and a symbol, or of a session alone. -/
def HasLine (store : Store) (session : ℤ) (sym : Option String) : Prop :=
  ∃ line ∈ store.gaps, line.session = session ∧ line.sym = sym

/-- What has no recorded chain has an entry, and a line where that says missing. -/
def Noted (store : Store) (item : ℤ × String) : Prop :=
  store.chainAt .eod item.1 item.2 = none →
    ∃ entry, store.entry .eod item.1 item.2 = some entry ∧
      (entry.result.status = .missing → store.HasLine item.1 (some item.2))

/-- What has no recorded chain is missing, and has a line. -/
def Closed (store : Store) (item : ℤ × String) : Prop :=
  store.chainAt .eod item.1 item.2 = none →
    (∃ entry, store.entry .eod item.1 item.2 = some entry ∧ entry.result.status = .missing) ∧
      store.HasLine item.1 (some item.2)

theorem Closed.noted {store : Store} {item : ℤ × String} (closed : store.Closed item) :
    store.Noted item := by
  intro unrecorded
  obtain ⟨⟨entry, found, -⟩, line⟩ := closed unrecorded
  exact ⟨entry, found, fun _ => line⟩

def applyAll (store : Store) (writes : List Write) : Store :=
  writes.foldl Store.apply store

end Store

/-- Every symbol that a run attempted for a session below the bound is closed. -/
def ClosedBelow (store : Store) (attempted : List (ℤ × String)) (bound : ℤ) : Prop :=
  ∀ item ∈ attempted, item.1 < bound → store.Closed item

/-- Every session between a manifest and the bound that no run attempted has a line. -/
def GaplessBelow (calendar : Splitting.SessionCalendar ℤ) (store : Store) (tried : List ℤ)
    (bound : ℤ) : Prop :=
  ∀ session ∈ calendar.sessions, ∀ first ∈ store.manifestSessions, first < session →
    session < bound → session ∈ tried ∨ store.HasLine session none

/-- The books of a store, for the sessions and symbols that runs have attempted, of which some are
not settled yet. -/
structure Books (calendar : Splitting.SessionCalendar ℤ) (tried : List ℤ)
    (attempted unsettled : List (ℤ × String)) (store : Store) : Prop where
  closed : ∀ bound ∈ store.manifestSessions, ClosedBelow store attempted bound
  gapless : ∀ bound ∈ store.manifestSessions, GaplessBelow calendar store tried bound
  covered : ∀ bound ∈ store.manifestSessions, ∀ session ∈ tried, session < bound →
    session ∈ store.manifestSessions
  explained : ∀ session ∈ store.manifestSessions, session ∈ tried ∨ store.HasLine session none
  bounded : ∀ session ∈ store.manifestSessions, ∃ later ∈ tried, session ≤ later
  settled : ∀ item ∈ attempted, item ∉ unsettled → store.Noted item

/-- A run of a session may close the books on earlier ones: those that were tried have a manifest,
and what is not settled of them has a recorded chain. -/
structure Ready (tried : List ℤ) (attempted unsettled : List (ℤ × String)) (store : Store)
    (session : ℤ) : Prop where
  started : session ∈ tried
  latest : ∀ earlier ∈ tried, earlier ≤ session
  triedOf : ∀ item ∈ attempted, item.1 ∈ tried
  covered : ∀ earlier ∈ tried, earlier < session → earlier ∈ store.manifestSessions
  recorded : ∀ item ∈ unsettled, item.1 < session →
    (store.chainAt .eod item.1 item.2).isSome

variable {calendar : Splitting.SessionCalendar ℤ} {tried : List ℤ}
  {attempted unsettled : List (ℤ × String)} {store : Store} {session session' last now : ℤ}

/-! ## Writes, one after another -/

theorem mem_manifestSessions :
    session ∈ store.manifestSessions ↔ (store.files.get (.manifest .eod session)).isSome := by
  rw [← Directory.mem_names, Store.manifestSessions, List.mem_filterMap]
  constructor
  · rintro ⟨path, member, isManifest⟩
    split at isManifest
    case h_1 session' =>
      cases isManifest
      exact member
    case h_2 => cases isManifest
  · intro member
    exact ⟨_, member, rfl⟩

theorem mem_manifestSessions_of_entry {sym : String} {entry : ManifestEntry}
    (found : store.entry .eod session sym = some entry) : session ∈ store.manifestSessions := by
  obtain ⟨doc, isDoc, -⟩ := Option.bind_eq_some_iff.mp found
  rw [Store.manifestAt] at isDoc
  rw [mem_manifestSessions]
  split at isDoc
  case h_1 doc' present =>
    rw [present]
    rfl
  case h_2 => cases isDoc

theorem mem_manifestSessions_apply {write : Write} :
    session ∈ (store.apply write).manifestSessions ↔
      session ∈ store.manifestSessions ∨ write.Touches (.manifest .eod session) := by
  rw [mem_manifestSessions, mem_manifestSessions]
  by_cases touched : write.Touches (.manifest .eod session)
  · refine iff_of_true ?_ (.inr touched)
    cases write with
    | manifest tier other doc =>
      cases touched
      rw [Store.apply, Directory.get_write_self]
      rfl
    | chain => cases touched
    | conflict => cases touched
    | raw => cases touched
    | gaps => exact touched.elim
    | pruneRaw =>
      obtain ⟨_, _, _, isRaw⟩ := touched
      cases isRaw
  · rw [get_apply touched]
    simp only [touched, or_false]

theorem Store.HasLine.apply {sym : Option String} {write : Write}
    (line : store.HasLine session sym) : (store.apply write).HasLine session sym := by
  obtain ⟨line, member, named⟩ := line
  cases write with
  | gaps lines => exact ⟨line, List.mem_append_left lines member, named⟩
  | _ => exact ⟨line, member, named⟩

section

variable {writes : List Write}

theorem Store.HasLine.applyAll {sym : Option String} (line : store.HasLine session sym) :
    (store.applyAll writes).HasLine session sym := by
  induction writes generalizing store with
  | nil => exact line
  | cons write writes ih => exact ih line.apply

theorem mem_manifestSessions_applyAll :
    session ∈ (store.applyAll writes).manifestSessions ↔
      session ∈ store.manifestSessions ∨
        ∃ write ∈ writes, write.Touches (.manifest .eod session) := by
  induction writes generalizing store with
  | nil => simp [Store.applyAll]
  | cons write writes ih =>
    refine ih.trans ?_
    rw [mem_manifestSessions_apply, or_assoc, List.exists_mem_cons_iff]

variable {sym : String}

theorem chainAt_applyAll (untouched : ∀ write ∈ writes, ¬ write.Touches (.chain .eod session sym)) :
    (store.applyAll writes).chainAt .eod session sym = store.chainAt .eod session sym := by
  induction writes generalizing store with
  | nil => rfl
  | cons write writes ih =>
    refine (ih (List.forall_mem_cons.mp untouched).2).trans ?_
    exact chainAt_apply (untouched write List.mem_cons_self)

theorem entry_applyAll (doc : Manifest)
    (written : ∀ write ∈ writes, write.Touches (.manifest .eod session) →
      write = .manifest .eod session doc) :
    (store.applyAll writes).entry .eod session sym = store.entry .eod session sym ∨
      (store.applyAll writes).entry .eod session sym = doc.symbols.get sym := by
  induction writes generalizing store with
  | nil => exact .inl rfl
  | cons write writes ih =>
    have after : (store.applyAll (write :: writes)).entry .eod session sym =
          (store.apply write).entry .eod session sym ∨
        (store.applyAll (write :: writes)).entry .eod session sym = doc.symbols.get sym :=
      ih (List.forall_mem_cons.mp written).2
    rcases after with same | closed
    · by_cases touched : write.Touches (.manifest .eod session)
      · obtain rfl := written write List.mem_cons_self touched
        exact .inr (same.trans (entry_apply_manifest sym))
      · exact .inl (same.trans (entry_apply touched))
    · exact .inr closed

theorem entry_applyAll_of_untouched
    (untouched : ∀ write ∈ writes, ¬ write.Touches (.manifest .eod session)) :
    (store.applyAll writes).entry .eod session sym = store.entry .eod session sym := by
  induction writes generalizing store with
  | nil => rfl
  | cons write writes ih =>
    refine (ih (List.forall_mem_cons.mp untouched).2).trans ?_
    exact entry_apply (untouched write List.mem_cons_self)

theorem applyAll_append {more : List Write} :
    store.applyAll (writes ++ more) = (store.applyAll writes).applyAll more :=
  List.foldl_append ..

end

/-! ## What closing writes -/

theorem mem_takeWhile_lt {sessions : List ℤ} (increasing : sessions.Pairwise (· < ·)) {bound : ℤ}
    (member : session ∈ sessions) (below : session < bound) :
    session ∈ sessions.takeWhile fun other => other < bound := by
  induction sessions with
  | nil => cases member
  | cons first rest ih =>
    obtain ⟨above, increasing⟩ := List.pairwise_cons.mp increasing
    have firstBelow : first < bound := by
      rcases List.mem_cons.mp member with rfl | isLater
      · exact below
      · exact (above session isLater).trans below
    rw [List.takeWhile_cons_of_pos (by simpa using firstBelow)]
    rcases List.mem_cons.mp member with rfl | isLater
    · exact List.mem_cons_self
    · exact List.mem_cons_of_mem first (ih increasing isLater)

theorem mem_skippedSessions {skipped : ℤ} :
    skipped ∈ skippedSessions calendar last session ↔
      skipped ∈ calendar.sessions ∧ last < skipped ∧ skipped < session := by
  rw [skippedSessions, sessionsAfter]
  constructor
  · intro member
    have below := List.mem_takeWhile_imp member
    have inside := List.mem_filter.mp (List.takeWhile_subset _ member)
    simp only [decide_eq_true_eq] at below inside
    exact ⟨inside.1, inside.2.1, below⟩
  · rintro ⟨isSession, after, below⟩
    refine mem_takeWhile_lt (calendar.increasing.filter _) (List.mem_filter.mpr ⟨isSession, ?_⟩)
      below
    simpa using ⟨after, below.le⟩

theorem finalizePrior_cases (store : Store) (calendar : Splitting.SessionCalendar ℤ)
    (session now : ℤ) :
    (finalizePrior store calendar session now = [] ∧
        ∀ prior ∈ store.manifestSessions, ¬ prior < session) ∨
      ∃ last ∈ store.manifestSessions, last < session ∧
        (∀ prior ∈ store.manifestSessions, prior < session → prior ≤ last) ∧
        finalizePrior store calendar session now = closeFrom store calendar last session now := by
  rw [finalizePrior]
  cases latest : (store.manifestSessions.filter fun prior => prior < session).max? with
  | none =>
    refine .inl ⟨rfl, ?_⟩
    intro prior member below
    rw [List.max?_eq_none_iff, List.filter_eq_nil_iff] at latest
    exact latest prior member (by simpa using below)
  | some last =>
    obtain ⟨member, greatest⟩ := List.max?_eq_some_iff.mp latest
    obtain ⟨isManifest, below⟩ := List.mem_filter.mp member
    refine .inr ⟨last, isManifest, by simpa using below, ?_, rfl⟩
    intro prior isPrior priorBelow
    exact greatest prior (List.mem_filter.mpr ⟨isPrior, by simpa using priorBelow⟩)

theorem foldl_closeSymbol (lost : List (String × ManifestEntry)) (symbols : Symbols)
    (sym : String) :
    (lost.foldl (closeSymbol now) symbols).get sym = symbols.get sym ∨
      ∃ entry, (lost.foldl (closeSymbol now) symbols).get sym = some entry ∧
        entry.result.status = .missing := by
  induction lost generalizing symbols with
  | nil => exact .inl rfl
  | cons first rest ih =>
    rw [List.foldl_cons]
    rcases ih (closeSymbol now symbols first) with same | closed
    · rw [same, closeSymbol, Directory.get_write]
      split
      case isTrue => exact .inr ⟨_, rfl, rfl⟩
      case isFalse => exact .inl rfl
    · exact .inr closed

theorem foldl_closeSymbol_of_mem {lost : List (String × ManifestEntry)}
    {item : String × ManifestEntry} (member : item ∈ lost) (symbols : Symbols) :
    ∃ entry, (lost.foldl (closeSymbol now) symbols).get item.1 = some entry ∧
      entry.result.status = .missing := by
  induction lost generalizing symbols with
  | nil => cases member
  | cons first rest ih =>
    rw [List.foldl_cons]
    rcases List.mem_cons.mp member with rfl | isLater
    · rcases foldl_closeSymbol rest (closeSymbol now symbols item) item.1 with same | closed
      · refine ⟨_, same.trans (Directory.get_write_self ..), rfl⟩
      · exact closed
    · exact ih isLater _

theorem mem_unclosed {sym : String} {entry : ManifestEntry}
    (found : store.entry .eod session sym = some entry)
    (unrecorded : store.chainAt .eod session sym = none)
    (open' : entry.result.status ≠ .missing) : (sym, entry) ∈ store.unclosed session := by
  obtain ⟨doc, isDoc, isEntry⟩ := Option.bind_eq_some_iff.mp found
  have symbols : store.symbolsAt session = doc.symbols := by
    rw [Store.symbolsAt, Store.readManifest, isDoc]
    rfl
  refine List.mem_filterMap.mpr ⟨sym, ?_, ?_⟩
  · rw [mem_sortedBy, Directory.mem_names, symbols, isEntry]
    rfl
  · rw [Store.unclosedEntry, symbols, isEntry, unrecorded]
    simp [open']

/-! ## What closing leaves -/

section

variable {made pending : List Write} {other : ℤ}

theorem of_touches_closeFrom {write : Write}
    (member : write ∈ closeFrom store calendar last session now)
    (touches : write.Touches (.manifest .eod other)) :
    other ∈ skippedSessions calendar last session ∨
      other = last ∧ ∃ doc, store.readManifest last = some doc ∧
        write = .manifest .eod last (store.closedManifest last now doc) := by
  rcases cases_of_mem_closeFrom member with ⟨skipped, isSkipped, rfl⟩ | ⟨doc, isDoc, rfl⟩ | rfl
  · cases touches
    exact .inl isSkipped
  · cases touches
    exact .inr ⟨rfl, doc, isDoc, rfl⟩
  · exact touches.elim

theorem chainAt_applyAll_planned {sym : String}
    (planned : made ++ pending = finalizePrior store calendar session now) :
    (store.applyAll made).chainAt .eod other sym = store.chainAt .eod other sym := by
  refine chainAt_applyAll ?_
  intro write member
  have isPlanned : write ∈ finalizePrior store calendar session now := by
    rw [← planned]
    exact List.mem_append_left pending member
  exact not_touches_chain (settled_of_mem_finalizePrior isPlanned) .eod other sym

theorem not_mem_skipped (latest : ∀ prior ∈ store.manifestSessions, prior < session → prior ≤ last)
    (member : other ∈ store.manifestSessions) : other ∉ skippedSessions calendar last session := by
  intro skipped
  obtain ⟨-, after, below⟩ := mem_skippedSessions.mp skipped
  exact absurd (latest other member below) (not_le.mpr after)

/-- An entry that says missing says so after every write of those that close the books. -/
theorem missing_applyAll_made {item : ℤ × String} {entry : ManifestEntry}
    (planned : made ++ pending = finalizePrior store calendar session now)
    (found : store.entry .eod item.1 item.2 = some entry)
    (isMissing : entry.result.status = .missing) :
    ∃ later, (store.applyAll made).entry .eod item.1 item.2 = some later ∧
      later.result.status = .missing := by
  obtain ⟨doc, isDoc, isEntry⟩ := Option.bind_eq_some_iff.mp found
  have written : ∀ write ∈ made, write.Touches (.manifest .eod item.1) →
      write = .manifest .eod item.1 (store.closedManifest item.1 now doc) := by
    intro write member touches
    have isPlanned : write ∈ finalizePrior store calendar session now := by
      rw [← planned]
      exact List.mem_append_left pending member
    rcases finalizePrior_cases store calendar session now with
      ⟨nothing, -⟩ | ⟨last, -, -, latest, isPlan⟩
    · rw [nothing] at isPlanned
      cases isPlanned
    · rw [isPlan] at isPlanned
      rcases of_touches_closeFrom isPlanned touches with skipped | ⟨rfl, doc', isDoc', isWrite⟩
      · have isManifest := mem_manifestSessions_of_entry found
        exact absurd skipped (not_mem_skipped latest isManifest)
      · rw [isWrite, Option.some.inj (isDoc.symm.trans isDoc')]
  rcases entry_applyAll _ written with same | closed
  · exact ⟨entry, same.trans found, isMissing⟩
  · rcases foldl_closeSymbol (store.unclosed item.1) doc.symbols item.2 with same | isClosed
    · exact ⟨entry, closed.trans (same.trans isEntry), isMissing⟩
    · obtain ⟨later, isLater, laterMissing⟩ := isClosed
      exact ⟨later, closed.trans isLater, laterMissing⟩

/-- **No write of those that close the books opens a session that was closed.** -/
theorem closed_applyAll_made {item : ℤ × String}
    (planned : made ++ pending = finalizePrior store calendar session now)
    (closed : store.Closed item) : (store.applyAll made).Closed item := by
  intro unrecorded
  rw [chainAt_applyAll_planned planned] at unrecorded
  obtain ⟨⟨entry, found, isMissing⟩, line⟩ := closed unrecorded
  exact ⟨missing_applyAll_made planned found isMissing, line.applyAll⟩

theorem hasLine_closeFrom {sym : Option String} {line : GapLine}
    (member : line ∈ closingLines store (skippedSessions calendar last session) last now)
    (names : line.session = session' ∧ line.sym = sym) :
    (store.applyAll (closeFrom store calendar last session now)).HasLine session' sym := by
  have written : appendGaps (closingLines store (skippedSessions calendar last session) last now) =
      [.gaps (closingLines store (skippedSessions calendar last session) last now)] := by
    rw [appendGaps, if_neg]
    intro nothing
    rw [nothing] at member
    cases member
  rw [closeFrom, written, applyAll_append]
  exact ⟨line, List.mem_append_right _ member, names⟩

/-- **What is noted of the latest session is closed.** -/
theorem closed_last {sym : String} (noted : store.Noted (last, sym))
    (isPlan : finalizePrior store calendar session now =
      closeFrom store calendar last session now) :
    (store.applyAll (finalizePrior store calendar session now)).Closed (last, sym) := by
  intro unrecorded
  rw [chainAt_applyAll_planned (List.append_nil _)] at unrecorded
  obtain ⟨entry, found, lined⟩ := noted unrecorded
  by_cases isMissing : entry.result.status = .missing
  · exact ⟨missing_applyAll_made (List.append_nil _) found isMissing, (lined isMissing).applyAll⟩
  · have isUnclosed : (sym, entry) ∈ store.unclosed last := mem_unclosed found unrecorded isMissing
    obtain ⟨doc, isDoc, isEntry⟩ := Option.bind_eq_some_iff.mp found
    have written : closeLast store last now =
        [.manifest .eod last (store.closedManifest last now doc)] := by
      have isRead : store.readManifest last = some doc := isDoc
      rw [closeLast, isRead]
      exact if_neg (List.ne_nil_of_mem isUnclosed)
    rw [isPlan]
    refine ⟨?_, ?_⟩
    · obtain ⟨later, isLater, laterMissing⟩ := foldl_closeSymbol_of_mem isUnclosed doc.symbols
      refine ⟨later, ?_, laterMissing⟩
      have untouched : ∀ write ∈ appendGaps
          (closingLines store (skippedSessions calendar last session) last now),
          ¬ write.Touches (.manifest .eod last) := by
        intro write member
        rw [eq_of_mem_appendGaps member]
        exact id
      rw [closeFrom, written, applyAll_append, applyAll_append,
        entry_applyAll_of_untouched untouched]
      exact (entry_apply_manifest sym).trans isLater
    · have line : ⟨now, last, some sym, .missing, (neverRecorded entry).detail⟩ ∈
          closingLines store (skippedSessions calendar last session) last now :=
        List.mem_append_right _ (List.mem_map.mpr ⟨(sym, entry), isUnclosed, rfl⟩)
      exact hasLine_closeFrom line ⟨rfl, rfl⟩

theorem lined_of_skipped {skipped : ℤ} (member : skipped ∈ skippedSessions calendar last session) :
    (store.applyAll (closeFrom store calendar last session now)).HasLine skipped none :=
  hasLine_closeFrom (List.mem_append_left _ (List.mem_map.mpr ⟨skipped, member, rfl⟩)) ⟨rfl, rfl⟩

/-- **Closing leaves every session below closed.** -/
theorem closed_finalizePrior (books : Books calendar tried attempted unsettled store)
    (ready : Ready tried attempted unsettled store session) :
    ClosedBelow (store.applyAll (finalizePrior store calendar session now)) attempted session := by
  rintro ⟨day, sym⟩ member below
  have isManifest : day ∈ store.manifestSessions :=
    ready.covered day (ready.triedOf _ member) below
  rcases finalizePrior_cases store calendar session now with
    ⟨-, noPrior⟩ | ⟨last, isLast, lastBelow, latest, isPlan⟩
  · exact absurd below (noPrior day isManifest)
  · rcases (latest day isManifest below).lt_or_eq with before | rfl
    · exact closed_applyAll_made (List.append_nil _) (books.closed last isLast _ member before)
    · by_cases isSettled : (day, sym) ∈ unsettled
      · have recorded := ready.recorded _ isSettled below
        intro unrecorded
        rw [chainAt_applyAll_planned (List.append_nil _)] at unrecorded
        rw [unrecorded] at recorded
        cases recorded
      · exact closed_last (books.settled _ member isSettled) isPlan

theorem mem_manifestSessions_finalizePrior
    (isPlan : finalizePrior store calendar session now = closeFrom store calendar last session now)
    (isLast : last ∈ store.manifestSessions) (member : other ∈
      (store.applyAll (finalizePrior store calendar session now)).manifestSessions) :
    other ∈ store.manifestSessions ∨ other ∈ skippedSessions calendar last session := by
  rcases mem_manifestSessions_applyAll.mp member with before | ⟨write, isWrite, touches⟩
  · exact .inl before
  · rw [isPlan] at isWrite
    rcases of_touches_closeFrom isWrite touches with skipped | ⟨rfl, -⟩
    · exact .inr skipped
    · exact .inl isLast

section

variable (books : Books calendar tried attempted unsettled store)

include books

/-- **Closing leaves no session without a line that no run attempted.** -/
theorem gapless_finalizePrior :
    GaplessBelow calendar (store.applyAll (finalizePrior store calendar session now)) tried
      session := by
  intro day isSession first isFirst after below
  rcases finalizePrior_cases store calendar session now with
    ⟨nothing, noPrior⟩ | ⟨last, isLast, lastBelow, latest, isPlan⟩
  · rw [nothing] at isFirst
    exact absurd (after.trans below) (noPrior first isFirst)
  · rcases lt_trichotomy last day with isSkipped | rfl | before
    · rw [isPlan]
      exact .inr (lined_of_skipped (mem_skippedSessions.mpr ⟨isSession, isSkipped, below⟩))
    · exact (books.explained last isLast).imp_right Store.HasLine.applyAll
    · have wasManifest : first ∈ store.manifestSessions := by
        rcases mem_manifestSessions_finalizePrior isPlan isLast isFirst with was | skipped
        · exact was
        · exact absurd (mem_skippedSessions.mp skipped).2.1 (not_lt.mpr (after.trans before).le)
      exact (books.gapless last isLast day isSession first wasManifest after before).imp_right
        Store.HasLine.applyAll

theorem le_of_mem_finalizePrior (ready : Ready tried attempted unsettled store session)
    (member : other ∈
      (store.applyAll (finalizePrior store calendar session now)).manifestSessions) :
    other ≤ session := by
  have before : ∀ manifest ∈ store.manifestSessions, manifest ≤ session := by
    intro manifest isManifest
    obtain ⟨later, isTried, le⟩ := books.bounded manifest isManifest
    exact le.trans (ready.latest later isTried)
  rcases finalizePrior_cases store calendar session now with
    ⟨nothing, -⟩ | ⟨last, isLast, -, -, isPlan⟩
  · rw [nothing] at member
    exact before other member
  · rcases mem_manifestSessions_finalizePrior isPlan isLast member with was | skipped
    · exact before other was
    · exact (mem_skippedSessions.mp skipped).2.2.le

/-- **The books are in order after closing.** -/
theorem books_finalizePrior (ready : Ready tried attempted unsettled store session) :
    Books calendar tried attempted unsettled
      (store.applyAll (finalizePrior store calendar session now)) where
  closed bound member item isItem below :=
    closed_finalizePrior books ready item isItem
      (below.trans_le (le_of_mem_finalizePrior books ready member))
  gapless bound member day isSession first isFirst after below :=
    gapless_finalizePrior books day isSession first isFirst after
      (below.trans_le (le_of_mem_finalizePrior books ready member))
  covered bound member day isTried below := by
    refine mem_manifestSessions_applyAll.mpr (.inl (ready.covered day isTried ?_))
    exact below.trans_le (le_of_mem_finalizePrior books ready member)
  explained day member := by
    rcases finalizePrior_cases store calendar session now with
      ⟨nothing, -⟩ | ⟨last, isLast, -, -, isPlan⟩
    · rw [nothing] at member ⊢
      exact books.explained day member
    · rcases mem_manifestSessions_finalizePrior isPlan isLast member with was | skipped
      · exact (books.explained day was).imp_right Store.HasLine.applyAll
      · rw [isPlan]
        exact .inr (lined_of_skipped skipped)
  bounded day member := ⟨session, ready.started, le_of_mem_finalizePrior books ready member⟩
  settled item isItem isSettled := by
    rcases (ready.latest item.1 (ready.triedOf item isItem)).lt_or_eq with below | own
    · exact (closed_finalizePrior books ready item isItem below).noted
    · intro unrecorded
      rw [chainAt_applyAll_planned (List.append_nil _)] at unrecorded
      obtain ⟨entry, found, lined⟩ := books.settled item isItem isSettled unrecorded
      refine ⟨entry, ?_, fun isMissing => (lined isMissing).applyAll⟩
      rw [entry_applyAll_of_untouched, found]
      intro write isWrite touches
      rcases finalizePrior_cases store calendar session now with
        ⟨nothing, -⟩ | ⟨last, isLast, lastBelow, latest, isPlan⟩
      · rw [nothing] at isWrite
        cases isWrite
      · rw [isPlan] at isWrite
        rcases of_touches_closeFrom isWrite touches with skipped | ⟨isLast', -⟩
        · exact (mem_skippedSessions.mp skipped).2.2.ne own
        · rw [isLast'] at own
          exact lastBelow.ne own

end

end

end TreeOptions.ChainStore
