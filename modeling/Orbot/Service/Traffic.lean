import Mathlib.Algebra.GroupWithZero.Nat
import Mathlib.Data.List.Chain
import Orbot.Service.TorEventHandler

/-! # Traffic totals

`bandwidthUsed` adds the counts to the totals only where they differ from those
of the event before, so the totals are sums exactly as long as no traffic is
reported twice in a row.
-/

namespace Orbot.Service

/-- A `bandwidth` event whose counts are not negative. -/
structure BandwidthEvent where
  read : ℕ
  written : ℕ
  readLong : read < Java.longLimit
  writtenLong : written < Java.longLimit

/-- A fresh handler after these events. -/
def delivered (status : Status) (events : List BandwidthEvent) : TorEventHandler :=
  events.foldl (fun h event => bandwidthUsed h event.read event.written)
    { mCurrentStatus := status }

/-- The sum of the read counts. -/
def readTotal (events : List BandwidthEvent) : ℕ :=
  (events.map (·.read)).sum

/-- The sum of the written counts. -/
def writtenTotal (events : List BandwidthEvent) : ℕ :=
  (events.map (·.written)).sum

/-- What is sent after each event are its own counts and the sums so far. -/
def SumsReported (status : Status) (events : List BandwidthEvent) : Prop :=
  ∀ before event, before ++ [event] <+: events →
    (delivered status (before ++ [event])).callbacks.getLast? =
      some (.bandwidth event.written event.read (writtenTotal (before ++ [event]))
        (readTotal (before ++ [event])))

/-- An event with the counts of the one before it reports no traffic. -/
def QuietRepeat (before event : BandwidthEvent) : Prop :=
  before.read = event.read ∧ before.written = event.written → event.read = 0 ∧ event.written = 0

structure SumsFit (events : List BandwidthEvent) : Prop where
  read : readTotal events < Java.longLimit
  written : writtenTotal events < Java.longLimit

section Totals

variable (events : List BandwidthEvent) (event : BandwidthEvent)

@[simp] theorem readTotal_append :
    readTotal (events ++ [event]) = readTotal events + event.read := by
  simp [readTotal]

@[simp] theorem writtenTotal_append :
    writtenTotal (events ++ [event]) = writtenTotal events + event.written := by
  simp [writtenTotal]

theorem SumsFit.init {events : List BandwidthEvent} {event : BandwidthEvent}
    (fit : SumsFit (events ++ [event])) : SumsFit events := by
  constructor
  · exact lt_of_le_of_lt (Nat.le_add_right _ _) (readTotal_append events event ▸ fit.read)
  · exact lt_of_le_of_lt (Nat.le_add_right _ _) (writtenTotal_append events event ▸ fit.written)

end Totals

/-! ## The fields of the handler -/

section Handler

variable (status : Status) (events : List BandwidthEvent) (event : BandwidthEvent)

theorem delivered_append :
    delivered status (events ++ [event]) =
      bandwidthUsed (delivered status events) event.read event.written := by
  simp [delivered]

theorem delivered_report :
    (delivered status (events ++ [event])).callbacks.getLast? =
      some (.bandwidth event.written event.read
        (delivered status (events ++ [event])).mTotalTrafficWritten
        (delivered status (events ++ [event])).mTotalTrafficRead) := by
  simp [delivered_append, bandwidthUsed, TorEventHandler.tell]

/-- The counts of the last event are those the next one is compared with. -/
theorem delivered_last_iff :
    (event.read = (delivered status events).lastRead ∧
        event.written = (delivered status events).lastWritten) ↔
      ∃ before ∈ events.getLast?,
        before.read = event.read ∧ before.written = event.written := by
  induction events using List.reverseRecOn with
  | nil =>
      simp only [delivered, List.foldl_nil, List.getLast?_nil]
      constructor
      · rintro ⟨impossible, -⟩
        omega
      · rintro ⟨before, missing, -⟩
        simp at missing
  | append_singleton events last _ =>
      simp only [delivered_append, bandwidthUsed, TorEventHandler.tell, List.getLast?_append,
        List.getLast?_singleton, Option.some_or, Option.mem_some_iff, exists_eq_left']
      omega

/-- The totals are the sums. -/
structure TotalsExact : Prop where
  read : (delivered status events).mTotalTrafficRead = readTotal events
  written : (delivered status events).mTotalTrafficWritten = writtenTotal events

theorem bandwidthUsed_same (h : TorEventHandler)
    (same : event.read = h.lastRead ∧ event.written = h.lastWritten) :
    (bandwidthUsed h event.read event.written).mTotalTrafficRead = h.mTotalTrafficRead ∧
      (bandwidthUsed h event.read event.written).mTotalTrafficWritten =
        h.mTotalTrafficWritten := by
  simp [bandwidthUsed, TorEventHandler.tell, same]

theorem bandwidthUsed_new (h : TorEventHandler)
    (differs : ¬(event.read = h.lastRead ∧ event.written = h.lastWritten)) :
    (bandwidthUsed h event.read event.written).mTotalTrafficRead =
        Java.wrap64 (h.mTotalTrafficRead + event.read) ∧
      (bandwidthUsed h event.read event.written).mTotalTrafficWritten =
        Java.wrap64 (h.mTotalTrafficWritten + event.written) := by
  rw [not_and_or] at differs
  simp [bandwidthUsed, TorEventHandler.tell, differs]

variable {status events}

theorem totalsExact_repeat_iff (exact : TotalsExact status events)
    (repeated : ∃ before ∈ events.getLast?,
      before.read = event.read ∧ before.written = event.written) :
    TotalsExact status (events ++ [event]) ↔ event.read = 0 ∧ event.written = 0 := by
  have same := (delivered_last_iff status events event).mpr repeated
  obtain ⟨reads, writes⟩ := bandwidthUsed_same event _ same
  rw [exact.read, ← delivered_append] at reads
  rw [exact.written, ← delivered_append] at writes
  constructor
  · intro after
    have read := after.read
    have written := after.written
    rw [reads, readTotal_append] at read
    rw [writes, writtenTotal_append] at written
    omega
  · rintro ⟨noRead, noWritten⟩
    constructor
    · rw [reads, readTotal_append, noRead, Nat.add_zero]
    · rw [writes, writtenTotal_append, noWritten, Nat.add_zero]

theorem totalsExact_new_iff (exact : TotalsExact status events)
    (new : ¬∃ before ∈ events.getLast?,
      before.read = event.read ∧ before.written = event.written) :
    TotalsExact status (events ++ [event]) ↔ SumsFit (events ++ [event]) := by
  have differs := mt (delivered_last_iff status events event).mp new
  obtain ⟨reads, writes⟩ := bandwidthUsed_new event _ differs
  rw [exact.read, ← delivered_append, ← Int.natCast_add, ← readTotal_append] at reads
  rw [exact.written, ← delivered_append, ← Int.natCast_add, ← writtenTotal_append] at writes
  constructor
  · intro after
    constructor
    · exact (Java.wrap64_natCast_iff _).mp (reads.symm.trans after.read)
    · exact (Java.wrap64_natCast_iff _).mp (writes.symm.trans after.written)
  · intro fit
    constructor
    · exact reads.trans ((Java.wrap64_natCast_iff _).mpr fit.read)
    · exact writes.trans ((Java.wrap64_natCast_iff _).mpr fit.written)

/-- One more event keeps the totals right unless it repeats traffic, or they
    overflow. -/
theorem totalsExact_append_iff (exact : TotalsExact status events) (fit : SumsFit events) :
    TotalsExact status (events ++ [event]) ↔
      (∀ before ∈ events.getLast?, QuietRepeat before event) ∧ SumsFit (events ++ [event]) := by
  by_cases repeated : ∃ before ∈ events.getLast?,
      before.read = event.read ∧ before.written = event.written
  · rw [totalsExact_repeat_iff event exact repeated]
    obtain ⟨before, last, equal⟩ := repeated
    constructor
    · intro quiet
      constructor
      · intro _ _ _
        exact quiet
      · constructor
        · rw [readTotal_append, quiet.1]
          exact fit.read
        · rw [writtenTotal_append, quiet.2]
          exact fit.written
    · rintro ⟨quiet, -⟩
      exact quiet before last equal
  · rw [totalsExact_new_iff event exact repeated]
    constructor
    · intro after
      constructor
      · intro before last equal
        exact absurd ⟨before, last, equal⟩ repeated
      · exact after
    · exact And.right

end Handler

section Reports

variable (status : Status) (events : List BandwidthEvent)

theorem sumsReported_iff_totalsExact :
    SumsReported status events ↔ ∀ before, before <+: events → TotalsExact status before := by
  constructor
  · intro reported before earlier
    cases before using List.reverseRecOn with
    | nil => exact ⟨rfl, rfl⟩
    | append_singleton before event _ =>
        have report := reported before event earlier
        rw [delivered_report, Option.some_inj, Callback.bandwidth.injEq] at report
        exact ⟨report.2.2.2, report.2.2.1⟩
  · intro exact before event earlier
    have totals := exact (before ++ [event]) earlier
    rw [delivered_report, totals.read, totals.written]

/-- The totals sent are the sums if and only if no traffic is reported twice in a
    row and the sums fit a `long`. -/
theorem sumsReported_iff :
    SumsReported status events ↔ events.IsChain QuietRepeat ∧ SumsFit events := by
  rw [sumsReported_iff_totalsExact]
  induction events using List.reverseRecOn with
  | nil =>
      constructor
      · intro _
        exact ⟨.nil, by decide, by decide⟩
      · intro _ before earlier
        rw [List.prefix_nil.mp earlier]
        exact ⟨rfl, rfl⟩
  | append_singleton events event ih =>
      constructor
      · intro exact
        have earlier : ∀ before, before <+: events → TotalsExact status before := by
          intro before inside
          exact exact before (inside.trans (List.prefix_append events [event]))
        obtain ⟨chain, fit⟩ := ih.mp earlier
        obtain ⟨quiet, fits⟩ :=
          (totalsExact_append_iff event (earlier events List.prefix_rfl) fit).mp
            (exact _ List.prefix_rfl)
        constructor
        · apply chain.append (.singleton event)
          simpa using quiet
        · exact fits
      · rintro ⟨chain, fits⟩ before earlier
        rw [List.isChain_append] at chain
        have inside := ih.mpr ⟨chain.1, fits.init⟩
        rcases List.prefix_concat_iff.mp earlier with rfl | inner
        · apply (totalsExact_append_iff event (inside events List.prefix_rfl) fits.init).mpr
          constructor
          · simpa using chain.2.2
          · exact fits
        · exact inside before inner

end Reports

/-- The same counts twice are added once. -/
theorem sumsReported_repeat_fails :
    ¬∀ (status : Status) (events : List BandwidthEvent),
      SumsReported status events := by
  intro claimed
  have reported := claimed .on [⟨5, 3, by decide, by decide⟩, ⟨5, 3, by decide, by decide⟩]
    [⟨5, 3, by decide, by decide⟩] ⟨5, 3, by decide, by decide⟩ List.prefix_rfl
  revert reported
  decide

end Orbot.Service
