import Mathlib.Data.List.Nodup

/-!
Looking things up by a key. What is found has the key; and where keys tell things apart, each thing
is found by its own.
-/

namespace Coordination

section Keyed

variable {α κ : Type} [DecidableEq κ] {key : α → κ} {l : List α} {x : α}

theorem mem_of_find?_key {k : κ} (h : l.find? (fun y => key y = k) = some x) :
    x ∈ l ∧ key x = k := by
  have hkey := List.find?_some h
  exact ⟨List.mem_of_find?_eq_some h, by simpa using hkey⟩

theorem key_ne_of_find? {k : κ} (h : l.find? (fun y => key y = k) = none) (hx : x ∈ l) :
    key x ≠ k := by
  have hkey := List.find?_eq_none.mp h x hx
  simpa using hkey

theorem find?_key (h : (l.map key).Nodup) (hx : x ∈ l) :
    l.find? (fun y => key y = key x) = some x := by
  cases hfind : l.find? fun y => key y = key x with
  | none => exact absurd rfl (key_ne_of_find? hfind hx)
  | some y =>
      obtain ⟨hy, hkey⟩ := mem_of_find?_key hfind
      rw [List.inj_on_of_nodup_map h hy hx hkey]

/-- At most one thing has a key. -/
theorem filter_eq_find? (h : (l.map key).Nodup) (k : κ) :
    l.filter (fun y => key y = k) = (l.find? fun y => key y = k).toList := by
  induction l with
  | nil => rfl
  | cons x l ih =>
      obtain ⟨hnew, hrest⟩ := List.nodup_cons.mp h
      by_cases hx : key x = k
      · have hnone : l.find? (fun y => key y = k) = none := by
          rw [List.find?_eq_none]
          intro y hy hkey
          exact hnew (List.mem_map.mpr ⟨y, hy, (of_decide_eq_true hkey).trans hx.symm⟩)
        simp [hx, ih hrest, hnone]
      · simp [hx, ih hrest]

/-- Changing things, or dropping some, keeps what is found by a key that it keeps. -/
theorem find?_filterMap_key {f : α → Option α} (keeps : ∀ x y, f x = some y → key y = key x)
    (h : (l.map key).Nodup) (k : κ) :
    (l.filterMap f).find? (fun y => key y = k) = (l.find? fun y => key y = k).bind f := by
  induction l with
  | nil => rfl
  | cons x l ih =>
      obtain ⟨hnew, hrest⟩ := List.nodup_cons.mp h
      have hlater := ih hrest
      by_cases hx : key x = k
      · have hfound : (x :: l).find? (fun y => key y = k) = some x :=
          List.find?_cons_of_pos (by simpa using hx)
        rw [hfound, Option.bind_some]
        cases hfx : f x with
        | some y =>
            rw [List.filterMap_cons_some hfx]
            exact List.find?_cons_of_pos (by simpa using (keeps x y hfx).trans hx)
        | none =>
            have hnone : l.find? (fun y => key y = k) = none := by
              rw [List.find?_eq_none]
              intro y hy hkey
              exact hnew (List.mem_map.mpr ⟨y, hy, (of_decide_eq_true hkey).trans hx.symm⟩)
            rw [List.filterMap_cons_none hfx, hlater, hnone, Option.bind_none]
      · have hskip : (x :: l).find? (fun y => key y = k) = l.find? fun y => key y = k :=
          List.find?_cons_of_neg (by simpa using hx)
        rw [hskip, ← hlater]
        cases hfx : f x with
        | some y =>
            have hy : key y ≠ k := fun hk => hx ((keeps x y hfx).symm.trans hk)
            rw [List.filterMap_cons_some hfx]
            exact List.find?_cons_of_neg (by simpa using hy)
        | none => rw [List.filterMap_cons_none hfx]

end Keyed

/-- Things that are told apart by numbers stand in strictly increasing order once they are
sorted. -/
theorem pairwise_mergeSort_key {α : Type} {key : α → Nat} {l : List α} (h : (l.map key).Nodup) :
    ((l.mergeSort fun x y => key x ≤ key y).map key).Pairwise (· < ·) := by
  let le (x y : α) : Bool := key x ≤ key y
  have htrans (x y z : α) (hxy : le x y = true) (hyz : le y z = true) : le x z = true :=
    decide_eq_true (Nat.le_trans (of_decide_eq_true hxy) (of_decide_eq_true hyz))
  have htotal (x y : α) : (le x y || le y x) = true := by
    simpa [le] using Nat.le_total (key x) (key y)
  have hsorted : (l.mergeSort le).Pairwise fun x y => le x y = true :=
    List.pairwise_mergeSort htrans htotal l
  have hnodup : ((l.mergeSort le).map key).Nodup := ((l.mergeSort_perm le).map key).nodup_iff.mpr h
  rw [List.pairwise_map]
  refine (hsorted.and (List.pairwise_map.mp hnodup)).imp fun hxy => ?_
  exact Nat.lt_of_le_of_ne (of_decide_eq_true hxy.1) hxy.2

section Filters

variable {α β : Type} {l : List α}

/-- What is looked for is found as well among those that it has to be one of. -/
theorem find?_filter_of {p q : α → Bool} (h : ∀ x ∈ l, q x = true → p x = true) :
    (l.filter p).find? q = l.find? q := by
  induction l with
  | nil => rfl
  | cons x l ih =>
      have hrest := ih fun y hy => h y (List.mem_cons_of_mem _ hy)
      cases hq : q x with
      | true =>
          have hp := h x List.mem_cons_self hq
          rw [List.filter_cons_of_pos hp, List.find?_cons_of_pos hq, List.find?_cons_of_pos hq]
      | false =>
          have hq' : ¬ q x = true := Bool.eq_false_iff.mp hq
          rw [List.find?_cons_of_neg hq', ← hrest]
          cases hp : p x with
          | true => rw [List.filter_cons_of_pos hp, List.find?_cons_of_neg hq']
          | false => rw [List.filter_cons_of_neg (Bool.eq_false_iff.mp hp)]

theorem filter_filter_of {p q : α → Bool} (h : ∀ x ∈ l, p x = true → q x = true) :
    (l.filter q).filter p = l.filter p := by
  rw [List.filter_filter]
  apply List.filter_congr
  intro x hx
  cases hp : p x with
  | true => rw [h x hx hp, Bool.and_true]
  | false => rfl

/-- Where nothing is told twice, what is told tells of one thing. -/
theorem eq_of_filterMap_nodup {f : α → Option β} (h : (l.filterMap f).Nodup) {x y : α} {b : β}
    (hx : x ∈ l) (hy : y ∈ l) (fx : f x = some b) (fy : f y = some b) : x = y := by
  induction l with
  | nil => cases hx
  | cons z l ih =>
      have htell {u : α} (hu : u ∈ l) (fu : f u = some b) : b ∈ l.filterMap f :=
        List.mem_filterMap.mpr ⟨u, hu, fu⟩
      have htwice {u : α} (hu : u ∈ l) (fu : f u = some b) (fz : f z = some b) : False := by
        rw [List.filterMap_cons_some fz, List.nodup_cons] at h
        exact h.1 (htell hu fu)
      rcases List.mem_cons.mp hx with hxz | hx
      · rcases List.mem_cons.mp hy with hyz | hy
        · rw [hxz, hyz]
        · exact (htwice hy fy (hxz ▸ fx)).elim
      · rcases List.mem_cons.mp hy with hyz | hy
        · exact (htwice hx fx (hyz ▸ fy)).elim
        · have hrest : (l.filterMap f).Nodup :=
            h.sublist ((List.sublist_cons_self z l).filterMap f)
          exact ih hrest hx hy

end Filters

/-- In a list of pairs whose keys are told apart, looking a key up is finding its pair. -/
theorem lookup_eq_some_iff_mem {κ β : Type} [BEq κ] [LawfulBEq κ] {l : List (κ × β)}
    (h : (l.map Prod.fst).Nodup) {k : κ} {b : β} : l.lookup k = some b ↔ (k, b) ∈ l := by
  rw [List.lookup_eq_some_iff]
  constructor
  · rintro ⟨before, after, rfl, -⟩
    exact List.mem_append_right before List.mem_cons_self
  · intro hmem
    obtain ⟨before, after, rfl⟩ := List.append_of_mem hmem
    refine ⟨before, after, rfl, fun x hx => ?_⟩
    rw [List.map_append, List.map_cons, List.nodup_middle, List.nodup_cons] at h
    have hkey : x.1 ∈ before.map Prod.fst := List.mem_map_of_mem hx
    rw [bne_iff_ne]
    intro heq
    exact h.1 (List.mem_append_left _ (heq ▸ hkey))

theorem lookup_map {κ β γ : Type} [BEq κ] (f : β → γ) (l : List (κ × β)) (k : κ) :
    (l.map fun e => (e.1, f e.2)).lookup k = (l.lookup k).map f := by
  induction l with
  | nil => rfl
  | cons e l ih =>
      rw [List.map_cons, List.lookup_cons, List.lookup_cons, ih]
      cases k == e.1 <;> rfl

section Pairs

variable {κ β : Type} [DecidableEq κ] {l l' : List (κ × β)}

theorem lookup_filter_key (l : List (κ × β)) (k : κ) :
    (l.filter fun e => e.1 = k).lookup k = l.lookup k := by
  induction l with
  | nil => rfl
  | cons e l ih =>
      obtain ⟨key, b⟩ := e
      by_cases hkey : key = k
      · simp [hkey]
      · simp [hkey, List.lookup_cons, beq_false_of_ne (Ne.symm hkey), ih]

theorem lookup_eq_of_perm (h : l.Perm l') (hnodup : (l'.map Prod.fst).Nodup) (k : κ) :
    l.lookup k = l'.lookup k := by
  have hnodup' : (l.map Prod.fst).Nodup := (h.map Prod.fst).nodup_iff.mpr hnodup
  refine Option.ext fun b => ?_
  rw [lookup_eq_some_iff_mem hnodup', lookup_eq_some_iff_mem hnodup, h.mem_iff]

/-- In a list of pairs whose keys are told apart, a key has at most one pair. -/
theorem filter_key (h : (l.map Prod.fst).Nodup) (k : κ) :
    l.filter (fun e => e.1 = k) = (l.lookup k).toList.map fun b => (k, b) := by
  induction l with
  | nil => rfl
  | cons e l ih =>
      obtain ⟨hfresh, hnodup⟩ := List.nodup_cons.mp h
      rw [List.filter_cons, List.lookup_cons, ih hnodup]
      by_cases he : e.1 = k
      · have hnone : l.lookup k = none := by
          rw [List.lookup_eq_none_iff]
          intro e' he'
          have hne : k ≠ e'.1 := fun heq => hfresh (by rw [he, heq]; exact List.mem_map_of_mem he')
          exact bne_iff_ne.mpr hne
        obtain ⟨key, b⟩ := e
        obtain rfl : key = k := he
        simp [hnone]
      · simp [he, beq_false_of_ne (Ne.symm he)]

end Pairs

end Coordination
