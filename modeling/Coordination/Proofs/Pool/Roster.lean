import Mathlib.Tactic.Abel
import Coordination.Proofs.Keyed
import Coordination.Proofs.Pool.Flow

/-!
The workers of a pool. They are told apart by their numbers, which are given out in order, and a
worker inside a handler call has handed over all that it held. A step that gives one worker a new
state, or lets it go, changes what workers hold by what that worker holds and by nothing else.
-/

namespace Coordination.Pool

variable {α : Type}

/-- The workers of a pool are told apart by their numbers, and those inside a handler call hold
nothing. -/
structure Roster (p : Pool α) : Prop where
  ids_nodup : (p.workers.map Worker.id).Nodup
  id_lt : ∀ w ∈ p.workers, w.id < p.hired
  batch_nil : ∀ w ∈ p.workers, ∀ batch last, w.stance = .handling batch last → w.batch = []

theorem roster_new (config : Config) (now itemBytes : Nat) :
    Roster (new config now itemBytes : Pool α) :=
  ⟨List.nodup_nil, by simp [new], by simp [new]⟩

/-- Only the workers and the number of those hired matter. -/
theorem Roster.congr {p q : Pool α} (h : Roster p) (hworkers : q.workers = p.workers)
    (hhired : q.hired = p.hired) : Roster q := by
  obtain ⟨hn, hl, hb⟩ := h
  constructor
  · rw [hworkers]
    exact hn
  · rw [hworkers, hhired]
    exact hl
  · rw [hworkers]
    exact hb

theorem worker?_some {p : Pool α} {id : Nat} {w : Worker α} (h : p.worker? id = some w) :
    w ∈ p.workers ∧ w.id = id := mem_of_find?_key h

theorem Roster.worker?_of_mem {p : Pool α} (h : Roster p) {w : Worker α} (hw : w ∈ p.workers) :
    p.worker? w.id = some w := find?_key h.ids_nodup hw

/-- The worker of a number has one place among the workers. What `update` puts there, and what
`exit` takes away, is found at that place. -/
theorem Roster.place {p : Pool α} (h : Roster p) {w v : Worker α}
    (hw : p.worker? v.id = some w) :
    ∃ before after, p.workers = before ++ w :: after ∧
      (p.update v).workers = before ++ v :: after ∧ (p.exit v).1.workers = before ++ after := by
  obtain ⟨hmem, hid⟩ := worker?_some hw
  obtain ⟨before, after, hsplit⟩ := List.append_of_mem hmem
  have hnodup := h.ids_nodup
  rw [hsplit, List.map_append, List.map_cons, List.nodup_middle, List.nodup_cons,
    ← List.map_append] at hnodup
  have hother (u : Worker α) (hu : u ∈ before ++ after) : u.id ≠ v.id := by
    intro heq
    apply hnodup.1
    rw [hid, ← heq]
    exact List.mem_map_of_mem hu
  have hbefore (u : Worker α) (hu : u ∈ before) := hother u (List.mem_append_left after hu)
  have hafter (u : Worker α) (hu : u ∈ after) := hother u (List.mem_append_right before hu)
  have hkeep (us : List (Worker α)) (hus : ∀ u ∈ us, u.id ≠ v.id) :
      us.map (fun u => if u.id = v.id then v else u) = us ∧
        us.filter (fun u => u.id ≠ v.id) = us := by
    constructor
    · exact (List.map_congr_left fun u hu => if_neg (hus u hu)).trans (List.map_id us)
    · exact List.filter_eq_self.mpr fun u hu => decide_eq_true (hus u hu)
  refine ⟨before, after, hsplit, ?_, ?_⟩
  · simp only [update, hsplit, List.map_append, List.map_cons, hid, if_true,
      (hkeep before hbefore).1, (hkeep after hafter).1]
  · simp only [exit, hsplit, List.filter_append, List.filter_cons, hid,
      (hkeep before hbefore).2, (hkeep after hafter).2]
    simp

section Balance

variable {p : Pool α} {w v : Worker α}

theorem Roster.batches_update (h : Roster p) (hw : p.worker? v.id = some w) :
    ((p.update v).batches : Multiset (Entry α)) + w.batch = p.batches + v.batch := by
  obtain ⟨before, after, hp, hq, -⟩ := h.place hw
  simp only [batches, hp, hq, List.flatMap_append, List.flatMap_cons, ← Multiset.coe_add]
  abel

theorem Roster.calls_update (h : Roster p) (hw : p.worker? v.id = some w) :
    ((p.update v).calls : Multiset (Entry α)) + w.calling = p.calls + v.calling := by
  obtain ⟨before, after, hp, hq, -⟩ := h.place hw
  simp only [calls, hp, hq, List.flatMap_append, List.flatMap_cons, ← Multiset.coe_add]
  abel

theorem Roster.batches_exit (h : Roster p) (hw : p.worker? v.id = some w) :
    ((p.exit v).1.batches : Multiset (Entry α)) + w.batch = p.batches := by
  obtain ⟨before, after, hp, -, hq⟩ := h.place hw
  simp only [batches, hp, hq, List.flatMap_append, List.flatMap_cons, ← Multiset.coe_add]
  abel

theorem Roster.calls_exit (h : Roster p) (hw : p.worker? v.id = some w) :
    ((p.exit v).1.calls : Multiset (Entry α)) + w.calling = p.calls := by
  obtain ⟨before, after, hp, -, hq⟩ := h.place hw
  simp only [calls, hp, hq, List.flatMap_append, List.flatMap_cons, ← Multiset.coe_add]
  abel

end Balance

/-- A worker in a new state keeps its number, so nobody else is touched. -/
theorem Roster.update {p : Pool α} (h : Roster p) {w v : Worker α}
    (hw : p.worker? v.id = some w)
    (hv : ∀ batch last, v.stance = .handling batch last → v.batch = []) :
    Roster (p.update v) := by
  obtain ⟨before, after, hp, hq, -⟩ := h.place hw
  have hid := (worker?_some hw).2
  obtain ⟨hn, hl, hb⟩ := h
  rw [hp] at hn hl hb
  constructor
  · rw [hq]
    simpa [hid] using hn
  · rw [hq]
    intro u hu
    rcases List.mem_append.mp hu with hu | hu
    · exact hl u (by simp [hu])
    · rcases List.mem_cons.mp hu with rfl | hu
      · rw [← hid]
        exact hl w (by simp)
      · exact hl u (by simp [hu])
  · rw [hq]
    intro u hu
    rcases List.mem_append.mp hu with hu | hu
    · exact hb u (by simp [hu])
    · rcases List.mem_cons.mp hu with rfl | hu
      · exact hv
      · exact hb u (by simp [hu])

theorem Roster.exit {p : Pool α} (h : Roster p) (v : Worker α) : Roster (p.exit v).1 := by
  obtain ⟨hn, hl, hb⟩ := h
  constructor
  · exact hn.sublist (List.filter_sublist.map Worker.id)
  · intro u hu
    exact hl u (List.mem_of_mem_filter hu)
  · intro u hu
    exact hb u (List.mem_of_mem_filter hu)

theorem mem_update {p : Pool α} {u v : Worker α} (h : u ∈ (p.update v).workers) :
    u = v ∨ u ∈ p.workers := by
  obtain ⟨x, hx, rfl⟩ := List.mem_map.mp h
  split
  · exact Or.inl rfl
  · exact Or.inr hx

theorem mem_hire {p : Pool α} {count : Nat} {lifetime : Option Duration} {u : Worker α}
    (hu : u ∈ (p.hire count lifetime).1.workers) :
    u ∈ p.workers ∨ ∃ i < count, u = newWorker p.crews (p.hired + i) := by
  rcases List.mem_append.mp hu with hu | hu
  · exact Or.inl hu
  · obtain ⟨i, hi, rfl⟩ := List.mem_map.mp hu
    exact Or.inr ⟨i, List.mem_range.mp hi, rfl⟩

/-- New workers get the next numbers. -/
theorem Roster.hire {p : Pool α} (h : Roster p) (count : Nat) (lifetime : Option Duration) :
    Roster (p.hire count lifetime).1 := by
  obtain ⟨hn, hl, hb⟩ := h
  constructor
  · simp only [Pool.hire, List.map_append, List.map_map]
    refine hn.append ?_ ?_
    · refine List.Nodup.map ?_ List.nodup_range
      intro i j hij
      simpa [newWorker] using hij
    · intro id hold hnew
      obtain ⟨u, hu, rfl⟩ := List.mem_map.mp hold
      obtain ⟨i, -, hi⟩ := List.mem_map.mp hnew
      have := hl u hu
      simp only [Function.comp, newWorker] at hi
      omega
  · intro u hu
    change u.id < p.hired + count
    rcases mem_hire hu with hu | ⟨i, hi, rfl⟩
    · exact Nat.lt_add_right count (hl u hu)
    · exact Nat.add_lt_add_left hi p.hired
  · intro u hu
    rcases mem_hire hu with hu | ⟨i, -, rfl⟩
    · exact hb u hu
    · simp [newWorker]

/-- New workers bring no items. -/
theorem hire_batches (p : Pool α) (count : Nat) (lifetime : Option Duration) :
    (p.hire count lifetime).1.batches = p.batches ∧ (p.hire count lifetime).1.calls = p.calls := by
  have hnew (f : Worker α → List (Entry α)) (hf : ∀ crew id, f (newWorker crew id) = []) :
      ((List.range count).map fun i => newWorker p.crews (p.hired + i)).flatMap f = [] := by
    simp [List.flatMap_map, hf]
  constructor
  · simp only [batches, Pool.hire, List.flatMap_append]
    rw [hnew _ fun _ _ => rfl, List.append_nil]
  · simp only [calls, Pool.hire, List.flatMap_append]
    rw [hnew _ fun _ _ => rfl, List.append_nil]

end Coordination.Pool
