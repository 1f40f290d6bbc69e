import Coordination.Proofs.Boost.Decision
import Coordination.Proofs.Pool.Finality

/-!
Pushes that ask for a boost. A push that found the buffer full and read the block timeout keeps what
it read while it waits. Once it has been blocked for that long it may ask, and it does so once,
since asking takes its watch away. Nothing but the watch is taken: the push waits on where it
stands, and what becomes of its item is what becomes of any other.
-/

namespace Coordination.Pool

variable {α : Type}

def Event.asker? : Event α → Option Nat
  | .asked push _ _ => some push
  | _ => none

/-- The pushes that have asked for a boost, in the order in which they did. -/
def askers (history : List (Nat × Event α)) : List Nat := history.filterMap fun h => h.2.asker?

theorem askers_append (h k : List (Nat × Event α)) : askers (h ++ k) = askers h ++ askers k :=
  List.filterMap_append

theorem askers_stamp (now : Nat) (events : List (Event α)) :
    askers (stamp now events) = events.filterMap Event.asker? := by
  rw [askers, stamp, List.filterMap_map]
  rfl

section Step

/-- A push asks for a boost in its own step: its watch is due, and nothing has ended its wait. The
controller answers, and the push waits on without its watch. -/
structure Asks (p : Pool α) (b : Blocked α) (w : Watch) (label : Label α) (o : Outcome α) :
    Prop where
  own : label = .resume b.entry.push
  waits : b ∈ p.blocked
  watch : b.watch = some w
  late : w.due ≤ p.now
  opened : p.closed = false
  full : p.hasRoom = false
  wanted : b.cancelled = false
  told : ∃ rest, o.2 = .asked b.entry.push w.observed (p.boost.blocked w.observed).2 :: rest ∧
    rest.filterMap Event.asker? = []
  blocked : o.1.blocked = (p.unwatch b.entry.push).blocked
  buffer : o.1.buffer = p.buffer

theorem Event.OfWorker.asker? {e : Event α} (h : e.OfWorker) : e.asker? = none := by
  cases e with
  | asked => exact h.elim
  | _ => rfl

/-- A push asks in a step of its own, and no other step tells of one that does. -/
theorem step_asks {p : Pool α} {label : Label α} {o : Outcome α} (ho : p.step label = some o) :
    o.2.filterMap Event.asker? = [] ∨ ∃ b w, Asks p b w label o := by
  cases step_acts ho with
  | push item cancelled becomes =>
      left
      cases becomes <;> rfl
  | @resume b waits o becomes =>
      have hb := (blocked?_some waits).1
      cases becomes with
      | refuse | accept => exact Or.inl rfl
      | breakOff => exact Or.inl rfl
      | @deny runs wanted opened full w watch late denied whole =>
          exact Or.inr ⟨b, w, rfl, hb, watch, late, opened, full, wanted, ⟨[], rfl, rfl⟩, rfl, rfl⟩
      | @boost runs wanted opened full w watch late number lifetime granted =>
          refine Or.inr ⟨b, w, rfl, hb, watch, late, opened, full, wanted, ?_, rfl, rfl⟩
          rw [granted]
          exact ⟨[.crewStarted p.crews number (some lifetime)], rfl, rfl⟩
  | work here free works =>
      left
      apply List.filterMap_eq_nil_iff.mpr
      intro e he
      exact (works_told works e he).asker?
  | cancelPush | dropPush | addNobody | addWorkers | startBroke | stopCrew | finishLast | finish
  | expireBoost | dropStay | endStay | flushed | flushFailed | flushWaits | giveUpFlush
  | pollFlushed | pollAgain | cancelFlush | dropFlush | setMaxWorkers | manage | shutdown
  | terminate | tick => exact Or.inl rfl

/-- A push that breaks off was still watching the block timeout, and is gone. -/
structure Breaks (p : Pool α) (b : Blocked α) (o : Outcome α) : Prop where
  waits : b ∈ p.blocked
  watches : b.watch ≠ none
  told : o.2 = [.pushBroke b.entry.push]
  blocked : o.1.blocked = (p.unblock b.entry.push).blocked

/-- A push breaks off in a step of its own, and no other step tells of one that does. -/
theorem step_breaks {p : Pool α} {label : Label α} {o : Outcome α} (ho : p.step label = some o) :
    brokenOff (stamp p.now o.2) = [] ∨ ∃ b, Breaks p b o := by
  cases step_acts ho with
  | push item cancelled becomes =>
      left
      cases becomes <;> rfl
  | @resume b waits o becomes =>
      have hb := (blocked?_some waits).1
      cases becomes with
      | refuse | accept | deny | boost => exact Or.inl rfl
      | breakOff runs wanted opened full watch late overflow =>
          exact Or.inr ⟨b, hb, by simp [watch], rfl, rfl⟩
  | work here free works =>
      left
      apply List.eq_nil_iff_forall_not_mem.mpr
      intro n hn
      exact works_told works _ (mem_brokenOff.mp hn)
  | cancelPush | dropPush | addNobody | addWorkers | startBroke | stopCrew | finishLast | finish
  | expireBoost | dropStay | endStay | flushed | flushFailed | flushWaits | giveUpFlush
  | pollFlushed | pollAgain | cancelFlush | dropFlush | setMaxWorkers | manage | shutdown
  | terminate | tick => exact Or.inl rfl

theorem Asks.asker {p : Pool α} {b : Blocked α} {w : Watch} {label : Label α} {o : Outcome α}
    (h : Asks p b w label o) : o.2.filterMap Event.asker? = [b.entry.push] := by
  obtain ⟨rest, htold, hquiet⟩ := h.told
  rw [htold]
  exact congrArg (b.entry.push :: ·) hquiet

/-- Only a push that asks is granted a boost, so in no other step does one become active. -/
theorem boost_begins {p : Pool α} {label : Label α} {o : Outcome α} (ho : p.step label = some o)
    (begins : p.boost.active < o.1.boost.active) :
    o.1.boost.active = p.boost.active + 1 ∧
      ∃ n observed number lifetime, label = .resume n ∧
        .asked n observed (.boost number lifetime) ∈ o.2 := by
  cases step_boosting ho with
  | grant push observed number runs granted boost boosts crews now told =>
      have hmem : Event.asked push observed (.boost number p.boost.lifetime) ∈ o.2 := by
        rw [told]
        exact List.mem_cons_self
      rcases step_asks ho with hnone | ⟨b, w, hasks⟩
      · simp [told, Event.asker?] at hnone
      · have hasker := hasks.asker
        have hpush : push = b.entry.push := by simpa [told, Event.asker?] using hasker
        have hactive := (Boost.Controller.blocked_granted granted).1
        rw [← boost] at hactive
        exact ⟨hactive, push, observed, number, p.boost.lifetime, hpush ▸ hasks.own, hmem⟩
  | expire d known due boost boosts crews now told =>
      rw [boost] at begins
      exact absurd begins (not_lt.mpr (Nat.sub_le _ _))
  | breakOff push observed overflow boost boosts crews told =>
      rw [boost, (Boost.overflow_cases overflow).2.2] at begins
      exact absurd begins (lt_irrefl _)
  | keep unturned =>
      obtain ⟨events, hnone, hboost⟩ := unturned.informed
      rw [hboost, Boost.active_of_turns_nil hnone] at begins
      exact absurd begins (lt_irrefl _)

/-- Where a push that waits after a step stands: it has joined the others, having found the buffer
of an open pool full, or it stood there before. It keeps what it read as long as it has a watch. -/
inductive Stands (p : Pool α) (label : Label α) (b : Blocked α) : Prop where
  | new (made : label = .push b.entry.item false) (number : b.entry.push = p.pushes)
    (full : p.hasRoom = false)
    (watch : ∀ w ∈ b.watch, w = ⟨p.boost.block, p.now + p.boost.block.nanos⟩)
  | still (a : Blocked α) (before : a ∈ p.blocked) (entry : a.entry = b.entry)
    (watch : ∀ w ∈ b.watch, w ∈ a.watch)

theorem step_stands {p : Pool α} (h : Roster p) {label : Label α} {o : Outcome α}
    (ho : p.step label = some o) {b : Blocked α} (hb : b ∈ o.1.blocked) : Stands p label b := by
  have hlines := step_lines h ho
  generalize o.1.blocked = line at hlines hb
  have same (hb : b ∈ p.blocked) : Stands p label b := Stands.still b hb rfl fun _ hw => hw
  cases hlines with
  | join item opened full watch watches =>
      rcases List.mem_append.mp hb with hold | hnew
      · exact same hold
      · obtain rfl := List.mem_singleton.mp hnew
        refine Stands.new rfl rfl full ?_
        intro w hw
        dsimp only at hw
        rw [watches] at hw
        split at hw
        · exact (Option.some.inj hw).symm
        · cases hw
  | leave n quiet => exact same (List.mem_of_mem_filter hb)
  | unwatch n =>
      obtain ⟨a, ha, rfl⟩ := List.mem_map.mp hb
      split
      · exact Stands.still a ha rfl nofun
      · exact Stands.still a ha rfl fun _ hw => hw
  | wish n =>
      obtain ⟨a, ha, rfl⟩ := List.mem_map.mp hb
      split <;> exact Stands.still a ha rfl fun _ hw => hw
  | same quiet => exact same hb

/-- A push that has asked has no watch any more. -/
theorem unwatch_watch {p : Pool α} {b : Blocked α} (hb : b ∈ (p.unwatch b.entry.push).blocked) :
    b.watch = none := by
  obtain ⟨a, -, ha⟩ := List.mem_map.mp hb
  split at ha
  · rw [← ha]
  · rename_i hne
    exact absurd (congrArg (fun b => b.entry.push) ha) hne

end Step

section Once

/-- Who has asked has done so once, and no longer watches the block timeout; who has broken off had
not asked before, and does not wait any more. -/
structure AskedOnce (p : Pool α) (history : List (Nat × Event α)) : Prop where
  nodup : (askers history).Nodup
  made : ∀ n ∈ askers history, n < p.pushes
  unwatched : ∀ b ∈ p.blocked, b.entry.push ∈ askers history → b.watch = none
  gone : ∀ n ∈ brokenOff history, n ∉ askers history ∧ n ∉ p.awaiting ∧ n < p.pushes

theorem step_pushes_le {p : Pool α} (h : Roster p) {label : Label α} {o : Outcome α}
    (ho : p.step label = some o) : p.pushes ≤ o.1.pushes := by
  have hpushes : o.1.pushes = _ := ((step_moved h ho).moves p.now).pushes_eq
  exact hpushes ▸ Nat.le_add_right _ _

theorem AskedOnce.gone_next {p : Pool α} {history : List (Nat × Event α)}
    (once : AskedOnce p history) (h : Roster p) {label : Label α} {o : Outcome α}
    (ho : p.step label = some o) (waits : ∀ b ∈ p.blocked, b.entry.push < p.pushes) :
    ∀ n ∈ brokenOff (history ++ stamp p.now o.2),
      n ∉ askers (history ++ stamp p.now o.2) ∧ n ∉ o.1.awaiting ∧ n < o.1.pushes := by
  intro n hn
  rw [brokenOff_append, List.mem_append] at hn
  rw [askers_append, askers_stamp, List.mem_append, not_or]
  rcases hn with hpast | hnow
  · obtain ⟨hasked, hwaits, hlt⟩ := once.gone n hpast
    refine ⟨⟨hasked, ?_⟩, ?_, hlt.trans_le (step_pushes_le h ho)⟩
    · rcases step_asks ho with hquiet | ⟨b, w, hasks⟩
      · simp [hquiet]
      · rw [hasks.asker, List.mem_singleton]
        rintro rfl
        exact hwaits (List.mem_map_of_mem hasks.waits)
    · intro hback
      obtain ⟨b, hb, rfl⟩ := List.mem_map.mp hback
      cases step_stands h ho hb with
      | new made number full watch => exact absurd number hlt.ne
      | still a before entry watch => exact hwaits (entry ▸ List.mem_map_of_mem before)
  · rcases step_breaks ho with hquiet | ⟨b, hbreaks⟩
    · rw [hquiet] at hnow
      cases hnow
    · obtain rfl : n = b.entry.push := by
        rw [hbreaks.told] at hnow
        exact List.mem_singleton.mp hnow
      refine ⟨⟨?_, ?_⟩, ?_, (waits b hbreaks.waits).trans_le (step_pushes_le h ho)⟩
      · exact fun hasked => hbreaks.watches (once.unwatched b hbreaks.waits hasked)
      · rw [hbreaks.told]
        exact List.not_mem_nil
      · rw [awaiting, hbreaks.blocked]
        intro hback
        obtain ⟨c, hc, hsame⟩ := List.mem_map.mp hback
        exact absurd hsame (of_decide_eq_true (List.mem_filter.mp hc).2)

theorem AskedOnce.next {p : Pool α} {history : List (Nat × Event α)} (once : AskedOnce p history)
    (h : Roster p) {label : Label α} {o : Outcome α} (ho : p.step label = some o)
    (waits : ∀ b ∈ p.blocked, b.entry.push < p.pushes) :
    AskedOnce o.1 (history ++ stamp p.now o.2) := by
  have hmade := step_pushes_le h ho
  have hgone := once.gone_next h ho waits
  -- Whoever had asked before stands where it stood, or its number was given to nobody yet.
  have hold (b : Blocked α) (hb : b ∈ o.1.blocked) (hasked : b.entry.push ∈ askers history) :
      b.watch = none := by
    cases step_stands h ho hb with
    | new made number full watch =>
        have hlt := once.made _ hasked
        omega
    | still a before entry watch =>
        have hnone : a.watch = none := once.unwatched a before (entry ▸ hasked)
        rw [hnone] at watch
        exact Option.eq_none_iff_forall_not_mem.mpr fun w hw => nomatch watch w hw
  rcases step_asks ho with hquiet | ⟨b, w, hasks⟩
  · have hsame : askers (history ++ stamp p.now o.2) = askers history := by
      rw [askers_append, askers_stamp, hquiet, List.append_nil]
    rw [← hsame] at hold
    exact ⟨hsame ▸ once.nodup, fun n hn => (once.made n (hsame ▸ hn)).trans_le hmade, hold, hgone⟩
  · have hone : askers (history ++ stamp p.now o.2) = askers history ++ [b.entry.push] := by
      rw [askers_append, askers_stamp, hasks.asker]
    have hnew : b.entry.push ∉ askers history := by
      intro hasked
      have hnone := once.unwatched b hasks.waits hasked
      rw [hasks.watch] at hnone
      cases hnone
    constructor
    · rw [hone]
      exact List.nodup_append_comm.mp (once.nodup.cons hnew)
    · intro n hn
      rw [hone, List.mem_append, List.mem_singleton] at hn
      rcases hn with hn | rfl
      · exact (once.made n hn).trans_le hmade
      · exact (waits b hasks.waits).trans_le hmade
    · intro c hc hn
      rw [hone, List.mem_append, List.mem_singleton] at hn
      rcases hn with hn | heq
      · exact hold c hc hn
      · rw [hasks.blocked, ← heq] at hc
        exact unwatch_watch hc
    · exact hgone

theorem Run.askedOnce {config : Config} {may : Pool α → Label α → Prop} {p : Pool α}
    {labels : List (Label α)} {history : List (Nat × Event α)}
    (run : Run config may p labels history) : AskedOnce p history := by
  induction run with
  | start now => exact ⟨List.nodup_nil, nofun, nofun, nofun⟩
  | next run hmay hstep ih => exact ih.next run.roster.1 hstep fun b hb => run.blocked_lt hb

end Once

section Since

/-- A push that waits in state `q` was made in state `r`, where it found the buffer full and read
the block timeout, before the steps `since`. -/
structure Began (r q : Pool α) (b : Blocked α) (since : List (Label α))
    (later : List (Nat × Event α)) : Prop where
  number : r.pushes = b.entry.push
  full : r.hasRoom = false
  read : ∀ w ∈ b.watch, w = ⟨r.boost.block, r.now + r.boost.block.nanos⟩
  replay : r.replay (.push b.entry.item false :: since) = some (q, later)

theorem Began.next {r p : Pool α} {a b : Blocked α} {since : List (Label α)}
    {later : List (Nat × Event α)} (h : Began r p a since later) {label : Label α} {o : Outcome α}
    (ho : p.step label = some o) (entry : a.entry = b.entry) (watch : ∀ w ∈ b.watch, w ∈ a.watch) :
    Began r o.1 b (since ++ [label]) (later ++ stamp p.now o.2) where
  number := entry ▸ h.number
  full := h.full
  read := fun w hw => h.read w (watch w hw)
  replay := entry ▸ replay_snoc h.replay ho

variable {config : Config} {p q : Pool α} {labels more : List (Label α)}
  {history later : List (Nat × Event α)}

theorem Run.began (run : Run config AnyStep p labels history) {b : Blocked α} (hb : b ∈ p.blocked) :
    ∃ r made first since later, Run config AnyStep r made first ∧
      labels = made ++ .push b.entry.item false :: since ∧ history = first ++ later ∧
      Began r p b since later := by
  induction run generalizing b with
  | start now => cases hb
  | @next p q labels history label events run hmay hstep ih =>
      cases step_stands run.roster.1 hstep hb with
      | new made number full watch =>
          rw [made] at hstep
          have hreplay : p.replay [.push b.entry.item false] = some (q, stamp p.now events) := by
            simp [Pool.replay, hstep]
          exact ⟨p, labels, history, [], stamp p.now events, run, by rw [made], rfl,
            number.symm, full, watch, hreplay⟩
      | still a before entry watch =>
          obtain ⟨r, made, first, since, later, hrun, rfl, rfl, began⟩ := ih before
          refine ⟨r, made, first, since ++ [label], later ++ stamp p.now events, hrun, ?_, ?_,
            began.next hstep entry watch⟩
          · rw [entry, List.append_assoc, List.cons_append]
          · rw [List.append_assoc]

/-- A push that waits in a later state waits now, if it has been made. -/
theorem Run.awaited (run : Run config AnyStep p labels history)
    (h : p.replay more = some (q, later)) {n : Nat} (made : n < p.pushes) (waits : n ∈ q.awaiting) :
    n ∈ p.awaiting := by
  have whole := run.replay (fun _ _ _ => trivial) h
  obtain ⟨-, haccepted, hrefused⟩ := mem_underWay.mp (whole.awaiting_underWay waits)
  rw [accepted_append, List.mem_append, not_or] at haccepted
  rw [refused_append, List.mem_append, not_or] at hrefused
  by_contra hnot
  have hunder : n ∈ underWay p history := mem_underWay.mpr ⟨made, haccepted.1, hrefused.1⟩
  have hgone := (run.abandoned_later h (mem_abandoned.mpr ⟨hunder, hnot⟩)).1
  exact (mem_abandoned.mp hgone).2 waits

/-- The push is blocked: it has neither been accepted nor refused, the pool has not been closed, and
its caller has not asked it to give up. -/
structure StillBlocked (p : Pool α) (labels : List (Label α)) (history : List (Nat × Event α))
    (n : Nat) : Prop where
  waits : n ∈ p.awaiting
  unanswered : n ∉ accepted history ∧ n ∉ refused history
  opened : p.closed = false ∧ p.terminated = false
  wanted : n ∉ givenUp 0 labels

theorem Run.stillBlocked (run : Run config AnyStep p labels history)
    (h : p.replay more = some (q, later)) {n : Nat} (made : n < p.pushes) (waits : n ∈ q.awaiting)
    (opened : q.closed = false) (wanted : n ∉ givenUp 0 (labels ++ more)) :
    StillBlocked p labels history n := by
  have whole := run.replay (fun _ _ _ => trivial) h
  have hwaits := run.awaited h made waits
  have hclose : ¬ (.shutdown ∈ labels ∨ .terminate ∈ labels) := by
    intro hcall
    have hclosed : q.closed = true := whole.closed_iff.mpr
      (hcall.imp (List.mem_append_left more) (List.mem_append_left more))
    rw [opened] at hclosed
    cases hclosed
  rw [givenUp_append, List.mem_append, not_or] at wanted
  constructor
  · exact hwaits
  · exact (mem_underWay.mp (run.awaiting_underWay hwaits)).2
  · rw [← Bool.not_eq_true, ← Bool.not_eq_true, run.closed_iff, run.terminated_iff]
    exact ⟨hclose, fun hover => hclose (Or.inr hover)⟩
  · exact wanted.1

theorem replay_split {since : List (Label α)}
    (h : p.replay (labels ++ since) = some (q, history)) :
    ∃ r first later, p.replay labels = some (r, first) ∧ r.replay since = some (q, later) ∧
      first ++ later = history := by
  induction labels generalizing p history with
  | nil => exact ⟨p, [], history, rfl, h, rfl⟩
  | cons label labels ih =>
      obtain ⟨s, events, rest, hstep, hrest, rfl⟩ := replay_cons h
      obtain ⟨r, first, later, hfirst, hlater, rfl⟩ := ih hrest
      refine ⟨r, stamp p.now events ++ first, later, ?_, hlater, List.append_assoc _ _ _⟩
      simp [replay, hstep, hfirst]

/-- What a push that asks for a boost in state `q` has behind it. It was made in state `r`, where it
found the buffer full and read this block timeout; it has been blocked in every state since then,
and for at least as long as it had read. -/
structure Endured (config : Config) (r q : Pool α) (made since : List (Label α)) (item : α)
    (first later : List (Nat × Event α)) (n : Nat) (observed : Duration) : Prop where
  before : Run config AnyStep r made first
  number : r.pushes = n
  full : r.buffer.length = config.capacity
  read : r.boost.block = observed
  replay : r.replay (.push item false :: since) = some (q, later)
  long_enough : r.now + observed.nanos ≤ q.now
  blocked : ∀ early late, since = early ++ late →
    ∃ s mid, r.replay (.push item false :: early) = some (s, mid) ∧
      StillBlocked s (made ++ .push item false :: early) (first ++ mid) n

theorem Run.endured (run : Run config AnyStep p labels history) {b : Blocked α} {w : Watch}
    {label : Label α} {o : Outcome α} (asks : Asks p b w label o) :
    ∃ r made item first since later, labels = made ++ .push item false :: since ∧
      history = first ++ later ∧ Endured config r p made since item first later b.entry.push
        w.observed := by
  obtain ⟨r, made, first, since, later, hrun, rfl, rfl, began⟩ := run.began asks.waits
  have hwatch := began.read w (Option.mem_def.mpr asks.watch)
  have hlate := asks.late
  refine ⟨r, made, b.entry.item, first, since, later, rfl, rfl, hrun, began.number,
    hrun.buffer_full began.full, by rw [hwatch], began.replay, ?_, ?_⟩
  · rw [hwatch] at hlate ⊢
    exact hlate
  · rintro early late rfl
    have hreplay : r.replay ((.push b.entry.item false :: early) ++ late) = some (p, later) :=
      began.replay
    obtain ⟨s, mid, rest, hmid, hrest, -⟩ := replay_split hreplay
    have hthen : Run config AnyStep s (made ++ .push b.entry.item false :: early) (first ++ mid) :=
      hrun.replay (fun _ _ _ => trivial) hmid
    have hnumber : b.entry.push < s.pushes := by
      have hr : r.pushes = (pushedItems made).length := hrun.owned.pushes
      have hs : s.pushes = (pushedItems (made ++ .push b.entry.item false :: early)).length :=
        hthen.owned.pushes
      rw [hs, ← began.number, hr]
      simp [pushedItems, Label.item?]
    have hwanted :
      b.entry.push ∉ givenUp 0 (made ++ .push b.entry.item false :: (early ++ late)) := by
      rw [← run.cancelled_iff asks.waits, asks.wanted]
      exact Bool.false_ne_true
    rw [← List.cons_append, ← List.append_assoc] at hwanted
    exact ⟨s, mid, hmid, hthen.stillBlocked hrest hnumber (List.mem_map_of_mem asks.waits)
      asks.opened hwanted⟩

/-- A push that asked is told of first in its step. -/
theorem Asks.first {b : Blocked α} {w : Watch} {label : Label α} {o : Outcome α}
    (h : Asks p b w label o) {front back : List (Nat × Event α)} {t n : Nat} {observed : Duration}
    {decision : Boost.Decision}
    (hstamp : stamp p.now o.2 = front ++ (t, .asked n observed decision) :: back) :
    front = [] ∧ p.now = t ∧ b.entry.push = n ∧ w.observed = observed ∧
      (p.boost.blocked w.observed).2 = decision := by
  obtain ⟨rest, htold, hquiet⟩ := h.told
  rw [htold, stamp, List.map_cons] at hstamp
  cases front with
  | nil =>
      obtain ⟨hevent, -⟩ := List.cons.inj hstamp
      obtain ⟨hnow, hevent⟩ := Prod.mk.inj hevent
      exact ⟨rfl, hnow, Event.asked.inj hevent⟩
  | cons x front =>
      obtain ⟨-, hrest⟩ := List.cons.inj hstamp
      have hlater : (t, .asked n observed decision) ∈ stamp p.now rest := by simp [stamp, hrest]
      have hsome : n ∈ rest.filterMap Event.asker? :=
        List.mem_filterMap.mpr ⟨_, (mem_stamp.mp hlater).2, rfl⟩
      rw [hquiet] at hsome
      cases hsome

theorem Run.asked (run : Run config AnyStep p labels history) {before after : List (Nat × Event α)}
    {t n : Nat} {observed : Duration} {decision : Boost.Decision}
    (h : history = before ++ (t, .asked n observed decision) :: after) :
    ∃ q done b w o, Run config AnyStep q done before ∧ q.now = t ∧ b.entry.push = n ∧
      w.observed = observed ∧ (q.boost.blocked observed).2 = decision ∧
      q.step (.resume n) = some o ∧ Asks q b w (.resume n) o := by
  obtain ⟨q, done, past, label, o, front, back, hrun, -, hstep, hstamp, rfl⟩ := run.origin h
  rcases step_asks hstep with hquiet | ⟨b, w, hasks⟩
  · have hnone : askers (stamp q.now o.2) = [] := by rw [askers_stamp, hquiet]
    rw [hstamp, askers_append] at hnone
    exact absurd (List.append_eq_nil_iff.mp hnone).2 (List.cons_ne_nil _ _)
  · obtain ⟨rfl, hnow, rfl, rfl, hdecision⟩ := hasks.first hstamp
    obtain rfl := hasks.own
    rw [List.append_nil]
    exact ⟨q, done, b, w, o, hrun, hnow, rfl, rfl, hdecision, hstep, hasks⟩

end Since

section Fate

/-- The pushes that wait stand in the order in which they were made. -/
def Ordered (f : Flow α) : Prop :=
  (f.waiting.map Entry.push).Pairwise (· < ·) ∧ ∀ n ∈ f.waiting.map Entry.push, n < f.pushes

theorem Ordered.others {f : Flow α} (h : Ordered f) (m : Nat) :
    Ordered { f with waiting := others m f.waiting } := by
  unfold Ordered
  rw [others_push]
  exact ⟨h.1.filter _, fun n hn => h.2 n (List.mem_of_mem_filter hn)⟩

theorem Moves.ordered {capacity : Nat} {label : Label α} {f g : Flow α} {u : Tidings α}
    (h : Moves capacity label f u g) (ordered : Ordered f) : Ordered g := by
  obtain ⟨hpairwise, hlt⟩ := ordered
  cases h with
  | turnAway | accept => exact ⟨hpairwise, fun n hn => Nat.lt_succ_of_lt (hlt n hn)⟩
  | wait item cancelled =>
      unfold Ordered
      rw [List.map_append, List.pairwise_append]
      refine ⟨⟨hpairwise, List.pairwise_singleton _ _, ?_⟩, ?_⟩
      · intro n hn m hm
        obtain rfl := List.mem_singleton.mp hm
        exact hlt n hn
      · intro n hn
        rcases List.mem_append.mp hn with hold | hnew
        · exact Nat.lt_succ_of_lt (hlt n hold)
        · obtain rfl := List.mem_singleton.mp hnew
          exact Nat.lt_succ_self _
  | enter | giveUp | drop => exact Ordered.others ⟨hpairwise, hlt⟩ _
  | work | finish | stay => exact ⟨hpairwise, hlt⟩

/-- A push that has just been made has its answer, or waits. -/
theorem Moves.made_answered {capacity : Nat} {label : Label α} {f g : Flow α} {u : Tidings α}
    (h : Moves capacity label f u g) {n : Nat} (made : n < g.pushes) (fresh : ¬ n < f.pushes) :
    n ∈ g.waiting.map Entry.push ∨ n ∈ u.accepted ∨ n ∈ u.refused := by
  have hnew (hlt : n < f.pushes + 1) : n = f.pushes := by omega
  cases h with
  | turnAway => exact Or.inr (Or.inr (by simp [hnew made]))
  | accept => exact Or.inr (Or.inl (by simp [hnew made]))
  | wait => exact Or.inl (by simp [hnew made])
  | enter | giveUp | drop | work | finish | stay => exact absurd made fresh

variable {config : Config} {may : Pool α → Label α → Prop} {p : Pool α} {labels : List (Label α)}
  {history : List (Nat × Event α)}

theorem Run.awaiting_ordered (run : Run config may p labels history) :
    p.awaiting.Pairwise (· < ·) := by
  have hordered : Ordered p.flow :=
    run.law (fun _ _ f => Ordered f) ⟨List.Pairwise.nil, nofun⟩
      fun _ _ _ _ _ _ law moves => moves.ordered law
  rw [← flow_waiting]
  exact hordered.1

/-- A push that has been made waits, has been accepted or refused, or has broken off, or its caller
went away. -/
theorem Run.accounted (run : Run config may p labels history) {n : Nat} (made : n < p.pushes) :
    n ∈ p.awaiting ∨ n ∈ accepted history ∨ n ∈ refused history ∨ n ∈ brokenOff history ∨
      .dropPush n ∈ labels := by
  induction run with
  | start now => exact absurd made (Nat.not_lt_zero n)
  | @next p q labels history label events run hmay hstep ih =>
      simp only [accepted_append, refused_append, brokenOff_append, List.mem_append,
        List.mem_singleton]
      by_cases hbefore : n < p.pushes
      · rcases ih hbefore with hwaits | haccepted | hrefused | hbroken | hdropped
        · by_cases hdrop : label = .dropPush n
          · simp [hdrop]
          · rcases step_answered run.roster.1 hstep hwaits hdrop with h | h | h | h <;> simp [h]
        · simp [haccepted]
        · simp [hrefused]
        · simp [hbroken]
        · simp [hdropped]
      · have hnew := ((step_moved run.roster.1 hstep).moves p.now).made_answered made hbefore
        rw [flow_waiting] at hnew
        have hanswer : n ∈ q.awaiting ∨ n ∈ accepted (stamp p.now events) ∨
            n ∈ refused (stamp p.now events) := hnew
        rcases hanswer with h | h | h <;> simp [h]

/-- The item of a push is in one place, unless it was refused or broke off, or its caller went
away. -/
theorem Run.in_one_place (run : Run config may p labels history) {n : Nat} (made : n < p.pushes)
    (unrefused : n ∉ refused history) (whole : n ∉ brokenOff history)
    (stays : .dropPush n ∉ labels) :
    p.awaiting.count n + p.buffered.count n + p.held.count n +
      (handedOver history).count n = 1 := by
  have hplaces := run.stocked_perm.count_eq n
  rw [List.count_append, List.count_append] at hplaces
  have hnodup := List.nodup_append.mp run.accepted_refused_nodup
  rcases run.accounted made with hwaits | haccepted | hrefused | hbroken | hdropped
  · have hone : p.awaiting.count n = 1 := List.count_eq_one_of_mem run.awaiting_nodup hwaits
    have hnot : n ∉ accepted history := (mem_underWay.mp (run.awaiting_underWay hwaits)).2.1
    have hzero : (accepted history).count n = 0 := List.count_eq_zero_of_not_mem hnot
    omega
  · have hone : (accepted history).count n = 1 := List.count_eq_one_of_mem hnodup.1 haccepted
    have hzero : p.awaiting.count n = 0 := by
      apply List.count_eq_zero_of_not_mem
      intro hwaits
      exact (mem_underWay.mp (run.awaiting_underWay hwaits)).2.1 haccepted
    omega
  · exact absurd hrefused unrefused
  · exact absurd hbroken whole
  · exact absurd hdropped stays

end Fate

/-- Boosts are earned by pushes that stay blocked. A boost becomes active only in the step of a push
that asks for one, and no other with it. Whoever asks had found the buffer full when it was made,
and has been blocked in every state since then, for at least the block timeout that it read. The
answer goes by what it read; if it is granted a boost, that is not below the block timeout in force.
No push asks twice. Asking costs a push nothing: it waits on in its place, as those that wait stand
in the order in which they were made; its item enters the buffer once at most, and unless it is
refused or its caller goes away the item is always in one place. -/
theorem boosts_are_earned {config : Config} {p : Pool α} {labels : List (Label α)}
    {history : List (Nat × Event α)} (run : Run config AnyStep p labels history) :
    (∀ label q events, p.step label = some (q, events) → p.boost.active < q.boost.active →
      q.boost.active = p.boost.active + 1 ∧
        ∃ n observed number lifetime, label = .resume n ∧
          .asked n observed (.boost number lifetime) ∈ events) ∧
    (∀ before t n observed decision after,
      history = before ++ (t, .asked n observed decision) :: after →
      ∃ q done, Run config AnyStep q done before ∧ q.now = t ∧
        (∃ r made item first since later, done = made ++ .push item false :: since ∧
          before = first ++ later ∧ Endured config r q made since item first later n observed) ∧
        decision = (q.boost.blocked observed).2 ∧
        ((∃ number lifetime, decision = .boost number lifetime) → q.boost.block ≤ observed) ∧
        ∃ s rest, q.step (.resume n) = some (s, .asked n observed decision :: rest) ∧
          s.blocked.map Blocked.entry = q.blocked.map Blocked.entry ∧ s.buffer = q.buffer) ∧
    (askers history).Nodup ∧
    p.awaiting.Pairwise (· < ·) ∧
    (∀ n ∈ askers history, (accepted history).count n ≤ 1 ∧
      (n ∉ refused history → .dropPush n ∉ labels →
        p.awaiting.count n + p.buffered.count n + p.held.count n +
          (handedOver history).count n = 1)) ∧
    (∀ e ∈ p.blocked.map Blocked.entry ++ p.buffer ++ p.batches ++ handed history,
      (pushedItems labels)[e.push]? = some e.item) := by
  have once := run.askedOnce
  refine ⟨?_, ?_, once.nodup, run.awaiting_ordered, ?_, ?_⟩
  · intro label q events hstep hbegins
    exact boost_begins hstep hbegins
  · intro before t n observed decision after h
    obtain ⟨q, done, b, w, o, hrun, hnow, rfl, rfl, rfl, hstep, hasks⟩ := run.asked h
    obtain ⟨rest, htold, -⟩ := hasks.told
    refine ⟨q, done, hrun, hnow, hrun.endured hasks, rfl, ?_, o.1, rest, ?_, ?_, hasks.buffer⟩
    · rintro ⟨number, lifetime, hgranted⟩
      exact (Boost.boost_cases hgranted).1.2.1
    · rw [hstep, ← htold]
    · rw [hasks.blocked]
      exact congrArg Flow.waiting (unwatch_flow q b.entry.push)
  · intro n hn
    constructor
    · exact List.nodup_iff_count_le_one.mp (List.nodup_append.mp run.accepted_refused_nodup).1 n
    · intro hrefused hstays
      have hwhole : n ∉ brokenOff history := fun hbroken => (once.gone n hbroken).1 hn
      exact run.in_one_place (once.made n hn) hrefused hwhole hstays
  · intro e he
    apply run.owned.owned e
    rw [seen]
    simpa [flow, tidings, or_assoc] using he

/-- Room for one item, batches of one, and boosts of one worker. -/
def earningConfig : Config where
  queueLength := 1
  batchLength := 1
  blockTimeout := .ofNanos 10
  boostTimeout := .ofNanos 100
  boostWorkers := 1

/-- Two pushes are blocked for as long as they had read. The first to ask is granted a boost, and
the second is told that the timeout has grown; it gets its room all the same. -/
def earningSteps : List (Label Nat) :=
  [.push 10 false, .push 20 false, .push 30 false, .tick 10, .resume 1, .resume 2, .work 0,
    .resume 2]

theorem boosts_are_earned_twice : ∃ (p : Pool Nat) (history : List (Nat × Event Nat)),
    Run earningConfig AnyStep p earningSteps history ∧
    (10, .asked 1 (.ofNanos 10) (.boost 1 (.ofNanos 100))) ∈ history ∧
    (10, .asked 2 (.ofNanos 10) .alreadyEscalated) ∈ history ∧
    askers history = [1, 2] ∧ (askers history).Nodup ∧
    p.awaiting = [1] ∧ p.buffered = [2] ∧ handedOver history = [0] ∧
    (∃ (q : Pool Nat) (done : List (Label Nat)),
      Run earningConfig AnyStep q done [(0, .accepted 0), (0, .blocked 1), (0, .blocked 2)] ∧
      q.now = 10 ∧ q.boost.block ≤ .ofNanos 10) ∧
    p.awaiting.count 1 + p.buffered.count 1 + p.held.count 1 + (handedOver history).count 1 = 1 ∧
    p.awaiting.count 2 + p.buffered.count 2 + p.held.count 2 +
      (handedOver history).count 2 = 1 := by
  have run : Run earningConfig AnyStep _ ([] ++ earningSteps) _ :=
    (Run.start 0 8).replay (fun _ _ _ => trivial) rfl
  obtain ⟨-, hearned, honce, -, hplaces, -⟩ := boosts_are_earned run
  obtain ⟨q, done, hrun, hnow, -, -, hblock, -⟩ := hearned
    [(0, .accepted 0), (0, .blocked 1), (0, .blocked 2)] 10 1 (.ofNanos 10)
    (.boost 1 (.ofNanos 100))
    [(10, .crewStarted 0 1 (some (.ofNanos 100))), (10, .asked 2 (.ofNanos 10) .alreadyEscalated),
      (10, .took 0 0), (10, .called 0 [⟨0, 10⟩] false), (10, .accepted 2)] (by decide)
  have hfirst := (hplaces 1 (by decide)).2 (by decide) (by decide)
  have hsecond := (hplaces 2 (by decide)).2 (by decide) (by decide)
  exact ⟨_, _, run, by decide, by decide, by decide, honce, by decide, by decide, by decide,
    ⟨q, done, hrun, hnow, hblock ⟨_, _, rfl⟩⟩, hfirst, hsecond⟩

end Coordination.Pool
