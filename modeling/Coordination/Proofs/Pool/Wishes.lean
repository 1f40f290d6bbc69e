import Coordination.Proofs.Pool.Abandoned

/-!
What the callers of pushes wish. A caller asks a push to give up when it makes it, or later while
the push waits. A waiting push knows of such a wish and of nothing else, and no push is refused for
a wish that its caller did not have.
-/

namespace Coordination.Pool

variable {α : Type}

section Wishes

/-- The push that a step asks to give up, when so many have been made before. -/
def Label.wish? (made : Nat) : Label α → Option Nat
  | .push _ true => some made
  | .cancelPush n => if n < made then some n else none
  | _ => none

/-- The pushes that have been asked to give up, where `made` were made before these steps. -/
def givenUp (made : Nat) : List (Label α) → List Nat
  | [] => []
  | label :: labels =>
    (label.wish? made).toList ++ givenUp (made + label.item?.toList.length) labels

theorem pushedItems_cons (label : Label α) (labels : List (Label α)) :
    pushedItems (label :: labels) = label.item?.toList ++ pushedItems labels := by
  cases hitem : label.item? <;> simp [pushedItems, hitem]

theorem givenUp_append (made : Nat) (labels more : List (Label α)) :
    givenUp made (labels ++ more) =
      givenUp made labels ++ givenUp (made + (pushedItems labels).length) more := by
  induction labels generalizing made with
  | nil => rfl
  | cons label labels ih =>
      rw [List.cons_append, givenUp, givenUp, ih, pushedItems_cons, List.length_append,
        List.append_assoc, Nat.add_assoc]

theorem Label.wish?_lt {made n : Nat} {label : Label α} (h : label.wish? made = some n) :
    n < made + label.item?.toList.length := by
  unfold Label.wish? at h
  split at h
  · obtain rfl := Option.some.inj h
    exact Nat.lt_succ_self made
  · split at h
    · rename_i hlt
      obtain rfl := Option.some.inj h
      exact Nat.lt_add_right _ hlt
    · cases h
  · cases h

/-- A push that has been made is asked to give up by its own cancellation only. -/
theorem Label.wish?_eq_iff {made n : Nat} {label : Label α} (h : n < made) :
    label.wish? made = some n ↔ label = .cancelPush n := by
  constructor
  · intro hwish
    unfold Label.wish? at hwish
    split at hwish
    · exact absurd (Option.some.inj hwish) h.ne'
    · split at hwish
      · obtain rfl := Option.some.inj hwish
        rfl
      · cases hwish
    · cases hwish
  · rintro rfl
    exact if_pos h

/-- Only pushes that have been made are asked to give up. -/
theorem givenUp_lt {made n : Nat} {labels : List (Label α)} (h : n ∈ givenUp made labels) :
    n < made + (pushedItems labels).length := by
  induction labels generalizing made with
  | nil => cases h
  | cons label labels ih =>
      rw [pushedItems_cons, List.length_append, ← Nat.add_assoc]
      rcases List.mem_append.mp h with hnow | hlater
      · have hwish : label.wish? made = some n := Option.mem_toList.mp hnow
        exact Nat.lt_add_right _ (Label.wish?_lt hwish)
      · exact ih hlater

end Wishes

section Step

/-- Where a push that waits after a step comes from: it is new and its caller waits for it, or it
waited before. -/
inductive Waits (p : Pool α) (label : Label α) (b : Blocked α) : Prop where
  | new (item : α) (made : label = .push item false) (number : b.entry.push = p.pushes)
    (wanted : b.cancelled = false)
  | still (a : Blocked α) (before : a ∈ p.blocked) (number : a.entry.push = b.entry.push)
    (wish : b.cancelled = true ↔ a.cancelled = true ∨ label = .cancelPush a.entry.push)

theorem Waits.same {p : Pool α} {label : Label α} {b : Blocked α} (h : b ∈ p.blocked)
    (quiet : label ≠ .cancelPush b.entry.push) : Waits p label b :=
  Waits.still b h rfl (by simp [quiet])

/-- What a step makes of the pushes that wait: one joins them at the end, having found the buffer of
an open pool full; one leaves them, loses its watch, or learns of its caller's wish; or they are as
before. -/
inductive Lines (p : Pool α) : Label α → List (Blocked α) → Prop where
  | join (item : α) (opened : p.closed = false) (full : p.hasRoom = false) (watch : Option Watch)
    (watches : watch = if p.boost.watchesPush then
      some ⟨p.boost.block, p.now + p.boost.block.nanos⟩ else none) :
    Lines p (.push item false) (p.blocked ++ [⟨⟨p.pushes, item⟩, watch, false⟩])
  | leave {label : Label α} (n : Nat) (quiet : ∀ m, label ≠ .cancelPush m) :
    Lines p label (p.unblock n).blocked
  | unwatch (n : Nat) : Lines p (.resume n) (p.unwatch n).blocked
  | wish (n : Nat) : Lines p (.cancelPush n) (p.cancelPush n).blocked
  | same {label : Label α} (quiet : ∀ m, label ≠ .cancelPush m) : Lines p label p.blocked

theorem step_lines {p : Pool α} (h : Roster p) {label : Label α} {o : Outcome α}
    (ho : p.step label = some o) : Lines p label o.1.blocked := by
  cases step_acts ho with
  | push item cancelled becomes =>
      cases becomes with
      | block runs opened full wanted watch watches =>
          rw [wanted]
          exact Lines.join item opened full watch watches
      | turnAway | refuse | accept => exact Lines.same nofun
  | resume waits becomes =>
      cases becomes with
      | refuse | accept | breakOff => exact Lines.leave _ nofun
      | deny | boost => exact Lines.unwatch _
  | cancelPush n => exact Lines.wish n
  | dropPush n => exact Lines.leave n nofun
  | work here free works =>
      obtain ⟨taken, handed, hworked⟩ := works_worked h here (calling_nil free) works
      rw [hworked.blocked]
      exact Lines.same nofun
  | stopCrew crew =>
      obtain ⟨stopped, hstop⟩ := stopCrew_eq p crew
      rw [hstop]
      exact Lines.same nofun
  | @expireBoost d | @endStay d =>
      obtain ⟨stopped, hstop⟩ := stopCrew_eq p d.crew
      rw [hstop]
      exact Lines.same nofun
  | addNobody | addWorkers | startBroke | finishLast | finish | dropStay | flushed | flushFailed
  | flushWaits | giveUpFlush | pollFlushed | pollAgain | cancelFlush | dropFlush | setMaxWorkers
  | manage | shutdown | terminate | tick => exact Lines.same nofun

/-- Nobody begins to wait but in a step of a push, and nobody's wish changes but as the caller
says. -/
theorem step_waits {p : Pool α} (h : Roster p) {label : Label α} {o : Outcome α}
    (ho : p.step label = some o) {b : Blocked α} (hb : b ∈ o.1.blocked) : Waits p label b := by
  have hlines := step_lines h ho
  generalize o.1.blocked = line at hlines hb
  cases hlines with
  | join item opened full watch watches =>
      rcases List.mem_append.mp hb with hold | hnew
      · exact Waits.same hold nofun
      · obtain rfl := List.mem_singleton.mp hnew
        exact Waits.new item rfl rfl rfl
  | leave n quiet => exact Waits.same (List.mem_of_mem_filter hb) (quiet _)
  | unwatch n =>
      obtain ⟨a, ha, rfl⟩ := List.mem_map.mp hb
      split
      · exact Waits.still a ha rfl (by simp)
      · exact Waits.same ha nofun
  | wish n =>
      obtain ⟨a, ha, rfl⟩ := List.mem_map.mp hb
      split
      · rename_i heq
        exact Waits.still a ha rfl (by simp [heq])
      · rename_i hne
        exact Waits.same ha (by simpa using Ne.symm hne)
  | same quiet => exact Waits.same hb (quiet _)

/-- Pushes are refused in their own steps only. -/
theorem Moves.refuses {capacity : Nat} {label : Label α} {f g : Flow α} {u : Tidings α}
    (h : Moves capacity label f u g) {n : Nat} (hn : n ∈ u.refused) :
    (∃ item cancelled, label = .push item cancelled) ∨ ∃ m, label = .resume m := by
  cases h with
  | turnAway item cancelled => exact Or.inl ⟨item, cancelled, rfl⟩
  | giveUp waits => exact Or.inr ⟨_, rfl⟩
  | accept | wait | enter | drop | work | finish | stay => cases hn

theorem mem_refused {now n : Nat} {error : Error} {events : List (Event α)}
    (h : .refused n error ∈ events) : n ∈ refused (stamp now events) :=
  List.mem_filterMap.mpr ⟨(now, .refused n error), List.mem_map_of_mem h, rfl⟩

/-- A push that is refused as cancelled was asked to give up, in this step or before. -/
theorem step_cancelled {p : Pool α} (h : Roster p) {label : Label α} {o : Outcome α}
    (ho : p.step label = some o) {n : Nat} (hn : .refused n .cancelled ∈ o.2) :
    label.wish? p.pushes = some n ∨ ∃ b ∈ p.blocked, b.entry.push = n ∧ b.cancelled = true := by
  rcases ((step_moved h ho).moves p.now).refuses (mem_refused hn) with
    ⟨item, cancelled, rfl⟩ | ⟨m, rfl⟩
  · left
    obtain rfl := Option.some.inj ho
    have hpushes := push_pushes p item cancelled
    generalize p.push item cancelled = o at hpushes hn
    cases hpushes with
    | turnAway halted => simp at hn
    | accept runs opened room => simp [accept] at hn
    | block runs opened full wanted watch watches => simp [block] at hn
    | refuse runs error why =>
        obtain ⟨rfl, rfl⟩ : n = p.pushes ∧ error = .cancelled := by
          simpa [refuse, eq_comm] using hn
        obtain ⟨-, hno⟩ | ⟨rfl, -⟩ := why
        · cases hno
        · rfl
  · right
    obtain ⟨b, hb, rfl, hresumes⟩ := resume_resumes ho
    cases hresumes with
    | accept runs wanted opened room => simp [accept] at hn
    | deny runs wanted opened full watch late denied whole => simp at hn
    | breakOff runs wanted opened full watch late overflow => simp at hn
    | boost runs wanted opened full watch late granted => simp [after, hire] at hn
    | refuse error why =>
        obtain ⟨rfl, rfl⟩ : n = b.entry.push ∧ error = .cancelled := by
          simpa [refuse, eq_comm] using hn
        obtain ⟨-, hno⟩ | ⟨-, hcancelled, -⟩ := why
        · cases hno
        · exact ⟨b, (blocked?_some hb).1, rfl, hcancelled⟩

end Step

section Run

variable {config : Config} {may : Pool α → Label α → Prop} {p : Pool α} {labels : List (Label α)}
  {history : List (Nat × Event α)}

theorem Run.givenUp_next (run : Run config may p labels history) (label : Label α) :
    givenUp 0 (labels ++ [label]) = givenUp 0 labels ++ (label.wish? p.pushes).toList := by
  have hpushes : p.pushes = (pushedItems labels).length := run.owned.pushes
  rw [givenUp_append, Nat.zero_add, ← hpushes, givenUp, givenUp, List.append_nil]

theorem Run.blocked_lt (run : Run config may p labels history) {b : Blocked α}
    (hb : b ∈ p.blocked) : b.entry.push < p.pushes := by
  have hwaits : b.entry.push ∈ p.awaiting := List.mem_map_of_mem hb
  exact (mem_underWay.mp (run.awaiting_underWay hwaits)).1

/-- A waiting push knows whether it has been asked to give up. -/
theorem Run.cancelled_iff (run : Run config may p labels history) {b : Blocked α}
    (hb : b ∈ p.blocked) : b.cancelled = true ↔ b.entry.push ∈ givenUp 0 labels := by
  induction run generalizing b with
  | start now => cases hb
  | @next p q labels history label events run hmay hstep ih =>
      rw [run.givenUp_next, List.mem_append, Option.mem_toList]
      cases step_waits run.roster.1 hstep hb with
      | new item made number wanted =>
          have hfresh : p.pushes ∉ givenUp 0 labels := by
            intro hold
            have hlt := givenUp_lt hold
            rw [Nat.zero_add, ← (run.owned.pushes : p.pushes = _)] at hlt
            exact absurd hlt (lt_irrefl _)
          rw [wanted, number, made]
          simp [hfresh, Label.wish?]
      | still a before number wish =>
          have hlt := run.blocked_lt before
          rw [wish, ih before, ← number, Label.wish?_eq_iff hlt]

/-- A push that was refused as cancelled had been asked to give up. -/
theorem Run.refused_cancelled (run : Run config may p labels history) {t n : Nat}
    (h : (t, .refused n .cancelled) ∈ history) : n ∈ givenUp 0 labels := by
  induction run with
  | start now => cases h
  | @next p q labels history label events run hmay hstep ih =>
      rw [run.givenUp_next, List.mem_append, Option.mem_toList]
      rcases List.mem_append.mp h with hpast | hnow
      · exact Or.inl (ih hpast)
      · obtain ⟨-, he⟩ := mem_stamp.mp hnow
        rcases step_cancelled run.roster.1 hstep he with hwish | ⟨b, hb, rfl, hcancelled⟩
        · exact Or.inr hwish
        · exact Or.inl ((run.cancelled_iff hb).mp hcancelled)

end Run

end Coordination.Pool
