import MyBookSources.Foundation.Bytes

/-! # Lists of ready descriptors

A system keeps for each watched descriptor what it is watched for and whether it is on the list of
those to be looked at. A level-triggered descriptor stays on the list for as long as it is ready,
an edge-triggered one leaves it when it is reported, and a one-shot one is disabled then, until it
is registered again.
-/

namespace MyBookSources.Readiness

structure Events where
  input : Bool
  output : Bool
  edge : Bool
  oneShot : Bool
  deriving DecidableEq

/-- A descriptor that is reported for as long as it is ready. -/
def Events.Level (events : Events) : Prop := events.edge = false ∧ events.oneShot = false

/-- An event that is not for input does not use up the only shot. -/
def Events.Saves (events : Events) : Prop := events.oneShot = true → events.output = false

theorem Events.saves_of_lasting {events : Events} (lasting : events.oneShot = false) :
    events.Saves := by
  intro shots
  rw [lasting] at shots
  cases shots

structure Entry where
  events : Events
  listed : Bool
  disabled : Bool
  deriving DecidableEq

namespace Entry

/-- Output never blocks here. -/
def register (events : Events) (readable : Bool) : Entry where
  events := events
  listed := events.input && readable || events.output
  disabled := false

def notify (entry : Entry) : Entry :=
  { entry with listed := entry.listed || entry.events.input && !entry.disabled }

def reports (entry : Entry) (readable : Bool) : Bool :=
  entry.listed && !entry.disabled && (entry.events.input && readable || entry.events.output)

def report (entry : Entry) : Entry :=
  if entry.events.oneShot then { entry with listed := false, disabled := true }
  else if entry.events.edge then { entry with listed := false }
  else entry

def drop (entry : Entry) : Entry := { entry with listed := false }

variable {entry : Entry}

theorem report_of_level (level : entry.events.Level) : entry.report = entry := by
  rw [report, level.1, level.2]
  rfl

@[simp] theorem events_report : entry.report.events = entry.events := by
  rw [report]
  split
  · rfl
  · split
    · rfl
    · rfl

theorem disabled_report (shots : entry.events.oneShot = false) :
    entry.report.disabled = entry.disabled := by
  rw [report, shots, if_neg Bool.false_ne_true]
  split
  · rfl
  · rfl

theorem disabled_report_of_oneShot (shot : entry.events.oneShot = true) :
    entry.report.disabled = true := by
  rw [report, shot]
  rfl

theorem enabled_of_reports {readable : Bool} (reported : entry.reports readable = true) :
    entry.disabled = false := by
  rw [reports, Bool.and_eq_true_iff, Bool.and_eq_true_iff] at reported
  exact Bool.not_eq_true' _ ▸ reported.1.2

end Entry

end MyBookSources.Readiness
