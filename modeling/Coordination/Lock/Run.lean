import Coordination.Lock.Section

/-!
Runs of a lock service: how a state came about, with the steps taken and everything that happened
on the way. Any step that can be taken may be taken next, as long as a token that is drawn has not
been granted before. Runs with sections are runs of this kind too.
-/

namespace Coordination.Lock

variable {τ : Type} [DecidableEq τ]

/-- The token that a step may give away. -/
def Label.drawn? : Label τ → Option τ
  | .lock _ _ _ _ fresh | .retry _ fresh => some fresh
  | _ => none

def granted (history : List (Event τ)) : List τ :=
  history.filterMap fun
    | .granted _ _ token => some token
    | _ => none

/-- A token that a step may give away is new. -/
def Fresh (label : Label τ) (history : List (Event τ)) : Prop :=
  ∀ token ∈ label.drawn?, token ∉ granted history

instance (label : Label τ) (history : List (Event τ)) : Decidable (Fresh label history) :=
  inferInstanceAs (Decidable (∀ token ∈ label.drawn?, token ∉ granted history))

/-- A lock service has come to a state through these steps and these events. -/
inductive Run : Locker τ → List (Label τ) → List (Event τ) → Prop where
  | start : Run {} [] []
  | next {l m : Locker τ} {labels : List (Label τ)} {history events : List (Event τ)}
    {label : Label τ} :
    Run l labels history → Fresh label history → l.step label = some (m, events) →
      Run m (labels ++ [label]) (history ++ events)

/-- Steps one after another, if each can be taken with a new token, and the whole history. -/
def Locker.replay (l : Locker τ) (history : List (Event τ)) :
    List (Label τ) → Option (Locker τ × List (Event τ))
  | [] => some (l, history)
  | label :: labels =>
    if Fresh label history then
      match l.step label with
      | none => none
      | some (m, events) => m.replay (history ++ events) labels
    else none

/-- A replay carries a run on. -/
theorem Run.replay {l m : Locker τ} {labels more : List (Label τ)}
    {history later : List (Event τ)} (run : Run l labels history)
    (h : l.replay history more = some (m, later)) : Run m (labels ++ more) later := by
  induction more generalizing l labels history with
  | nil =>
      obtain ⟨rfl, rfl⟩ : l = m ∧ history = later := by simpa [Locker.replay] using h
      simpa using run
  | cons label more ih =>
      unfold Locker.replay at h
      split at h
      · rename_i fresh
        split at h
        · cases h
        · rename_i next events hstep
          simpa [List.append_assoc] using ih (Run.next run fresh hstep) h
      · cases h

section Moments

/-- One step of a run, the time at which it was taken and what it told. -/
structure Moment (τ : Type) where
  label : Label τ
  time : Nat
  events : List (Event τ)
  deriving DecidableEq, Repr

def told (seen : List (Moment τ)) : List (Event τ) := seen.flatMap Moment.events

/-- A lock service has come to a state through these moments. -/
inductive Timeline : Locker τ → List (Moment τ) → Prop where
  | start : Timeline {} []
  | next {l m : Locker τ} {seen : List (Moment τ)} {events : List (Event τ)} {label : Label τ} :
    Timeline l seen → Fresh label (told seen) → l.step label = some (m, events) →
      Timeline m (seen ++ [⟨label, l.now, events⟩])

/-- What a timeline tells is a run. -/
theorem Timeline.run {l : Locker τ} {seen : List (Moment τ)} (time : Timeline l seen) :
    Run l (seen.map Moment.label) (told seen) := by
  induction time with
  | start => exact .start
  | next time fresh hstep ih =>
      simpa [told] using Run.next ih fresh hstep

/-- Every run has its timeline. -/
theorem Run.timeline {l : Locker τ} {labels : List (Label τ)} {history : List (Event τ)}
    (run : Run l labels history) :
    ∃ seen, Timeline l seen ∧ seen.map Moment.label = labels ∧ told seen = history := by
  induction run with
  | start => exact ⟨[], .start, rfl, rfl⟩
  | next run fresh hstep ih =>
      obtain ⟨seen, time, rfl, rfl⟩ := ih
      exact ⟨_, .next time fresh hstep, by simp, by simp [told]⟩

/-- Steps one after another, if each can be taken with a new token, and all moments. -/
def Locker.chronicle (l : Locker τ) (seen : List (Moment τ)) :
    List (Label τ) → Option (Locker τ × List (Moment τ))
  | [] => some (l, seen)
  | label :: labels =>
    if Fresh label (told seen) then
      match l.step label with
      | none => none
      | some (m, events) => m.chronicle (seen ++ [⟨label, l.now, events⟩]) labels
    else none

theorem Timeline.chronicle {l m : Locker τ} {seen later : List (Moment τ)} (time : Timeline l seen)
    (more : List (Label τ)) (h : l.chronicle seen more = some (m, later)) : Timeline m later := by
  induction more generalizing l seen with
  | nil =>
      obtain ⟨rfl, rfl⟩ : l = m ∧ seen = later := by simpa [Locker.chronicle] using h
      exact time
  | cons label more ih =>
      unfold Locker.chronicle at h
      split at h
      · rename_i fresh
        split at h
        · cases h
        · rename_i next events hstep
          exact ih (.next time fresh hstep) h
      · cases h

end Moments

section Sections

variable {ε α : Type}

/-- What the service told, out of all that was told. -/
def serviceEvents (history : List (SectionEvent τ ε α)) : List (Event τ) :=
  history.filterMap fun
    | .locker event => some event
    | _ => none

def SectionLabel.drawn? : SectionLabel τ ε α → Option τ
  | .locker label => label.drawn?
  | .enter _ _ _ _ fresh => some fresh
  | _ => none

def SectionLabel.Fresh (label : SectionLabel τ ε α) (history : List (SectionEvent τ ε α)) : Prop :=
  ∀ token ∈ label.drawn?, token ∉ granted (serviceEvents history)

instance (label : SectionLabel τ ε α) (history : List (SectionEvent τ ε α)) :
    Decidable (label.Fresh history) :=
  inferInstanceAs (Decidable (∀ token ∈ label.drawn?, token ∉ granted (serviceEvents history)))

inductive Sections.Run :
    Sections τ → List (SectionLabel τ ε α) → List (SectionEvent τ ε α) → Prop where
  | start : Run {} [] []
  | next {s t : Sections τ} {labels : List (SectionLabel τ ε α)}
    {history events : List (SectionEvent τ ε α)} {label : SectionLabel τ ε α} :
    Run s labels history → label.Fresh history → s.step label = some (t, events) →
      Run t (labels ++ [label]) (history ++ events)

def Sections.replay (s : Sections τ) (history : List (SectionEvent τ ε α)) :
    List (SectionLabel τ ε α) → Option (Sections τ × List (SectionEvent τ ε α))
  | [] => some (s, history)
  | label :: labels =>
    if label.Fresh history then
      match s.step label with
      | none => none
      | some (t, events) => t.replay (history ++ events) labels
    else none

theorem Sections.Run.replay {s t : Sections τ} {labels more : List (SectionLabel τ ε α)}
    {history later : List (SectionEvent τ ε α)} (run : Sections.Run s labels history)
    (h : s.replay history more = some (t, later)) : Sections.Run t (labels ++ more) later := by
  induction more generalizing s labels history with
  | nil =>
      obtain ⟨rfl, rfl⟩ : s = t ∧ history = later := by simpa [Sections.replay] using h
      simpa using run
  | cons label more ih =>
      unfold Sections.replay at h
      split at h
      · rename_i fresh
        split at h
        · cases h
        · rename_i next events hstep
          simpa [List.append_assoc] using ih (.next run fresh hstep) h
      · cases h

end Sections

end Coordination.Lock
