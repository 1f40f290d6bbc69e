import Coordination.Manager.Attachment
import Coordination.Proofs.Keyed

/-!
A record and the links that lead to it. Crews and batches are numbered apart from each other, and
each link pairs one of the one with one of the other; so what is done to a batch by its number is
done to the crew that was recorded as this batch, and to no other. With that, a record agrees with
the workers that are there: it counts the workers of each batch, and misses no crew that has
workers and goes on.
-/

namespace Coordination.Manager

def Batch.key {τ : Type} (b : Batch τ) : Nat × τ := (b.id, b.token)

/-- A batch, with one worker fewer if it is the one of this number. -/
def Batch.oneLess {τ : Type} (id : Nat) (b : Batch τ) : Batch τ :=
  if b.id = id then { b with count := b.count - 1 } else b

theorem Batch.oneLess_key {τ : Type} (id : Nat) (b : Batch τ) : (b.oneLess id).key = b.key := by
  unfold oneLess
  split <;> rfl

namespace BatchTable

variable {τ : Type} {t : BatchTable τ}

theorem batch?_some {id : Nat} {b : Batch τ} (h : t.batch? id = some b) :
    b ∈ t.batches ∧ b.id = id := mem_of_find?_key h

theorem mem_forget {id : Nat} {b : Batch τ} :
    b ∈ (t.forget id).1.batches ↔ b ∈ t.batches ∧ b.id ≠ id := by
  simp [forget]

end BatchTable

namespace Ledger

variable {l : Ledger Nat}

/-- Links pair crews with batches, and every batch is paired with the crew that has its token. -/
structure Paired (crews : Nat) (l : Ledger Nat) : Prop where
  crew_lt : ∀ crew ∈ l.links.map Link.crew, crew < crews
  batch_le : ∀ batch ∈ l.links.map Link.batch, batch ≤ l.table.counter
  crews_nodup : (l.links.map Link.crew).Nodup
  batches_nodup : (l.links.map Link.batch).Nodup
  ids_nodup : (l.table.batches.map Batch.id).Nodup
  linked : ∀ b ∈ l.table.batches, (⟨b.token, b.id, true⟩ : Link) ∈ l.links

section Paired

variable {crews : Nat}

/-- The batch that a link leads to is that of its crew. -/
theorem Paired.id_eq_iff (h : Paired crews l) {k : Link} (hk : k ∈ l.links) {b : Batch Nat}
    (hb : b ∈ l.table.batches) : b.id = k.batch ↔ b.token = k.crew := by
  have hlink := h.linked b hb
  constructor
  · intro hid
    exact congrArg Link.crew (List.inj_on_of_nodup_map h.batches_nodup hlink hk hid)
  · intro htoken
    exact congrArg Link.batch (List.inj_on_of_nodup_map h.crews_nodup hlink hk htoken)

theorem Paired.eq_of_id_eq (h : Paired crews l) {b c : Batch Nat} (hb : b ∈ l.table.batches)
    (hc : c ∈ l.table.batches) (hid : b.id = c.id) : b = c :=
  List.inj_on_of_nodup_map h.ids_nodup hb hc hid

theorem Paired.batch?_eq (h : Paired crews l) {b : Batch Nat} (hb : b ∈ l.table.batches) :
    l.table.batch? b.id = some b := find?_key h.ids_nodup hb

/-- The token that a batch fires when it is forgotten is that of the crew linked to it. -/
theorem Paired.fired_of_forget (h : Paired crews l) {k : Link} (hk : k ∈ l.links) {fired : Nat}
    (hfired : fired ∈ (l.table.forget k.batch).2) : fired = k.crew := by
  obtain ⟨b, hfound, rfl⟩ := Option.map_eq_some_iff.mp hfired
  obtain ⟨hb, hid⟩ := BatchTable.batch?_some hfound
  exact (h.id_eq_iff hk hb).mp hid

theorem Paired.token_ne (h : Paired crews l) {b c : Batch Nat} (hb : b ∈ l.table.batches)
    (hc : c ∈ l.table.batches) (hid : b.id ≠ c.id) : b.token ≠ c.token := fun htoken =>
  hid ((h.id_eq_iff (h.linked c hc) hb).mpr htoken)

theorem Paired.link?_eq (h : Paired crews l) {b : Batch Nat} (hb : b ∈ l.table.batches) :
    l.link? b.token = some ⟨b.token, b.id, true⟩ := find?_key h.crews_nodup (h.linked b hb)

/-- No two batches have one token. -/
theorem Paired.tokens_nodup (h : Paired crews l) : (l.table.batches.map Batch.token).Nodup := by
  have hnodup : l.table.batches.Nodup := h.ids_nodup.of_map Batch.id
  refine hnodup.map_on ?_
  intro b hb c hc htoken
  by_contra hne
  exact h.token_ne hb hc (fun hid => hne (h.eq_of_id_eq hb hc hid)) htoken

theorem Paired.mono (h : Paired crews l) {more : Nat} (hmore : crews ≤ more) : Paired more l :=
  { h with crew_lt := fun crew hcrew => Nat.lt_of_lt_of_le (h.crew_lt crew hcrew) hmore }

/-- Batches may go or be counted anew. -/
theorem Paired.fewer (h : Paired crews l) {batches : List (Batch Nat)}
    (hkeys : (batches.map Batch.key).Sublist (l.table.batches.map Batch.key)) :
    Paired crews { l with table := { l.table with batches } } := by
  have hids (bs : List (Batch Nat)) : bs.map Batch.id = (bs.map Batch.key).map Prod.fst := by
    rw [List.map_map]
    rfl
  refine { h with ids_nodup := ?_, linked := ?_ }
  · have hnodup := h.ids_nodup
    rw [hids] at hnodup ⊢
    exact hnodup.sublist (hkeys.map Prod.fst)
  · intro b hb
    obtain ⟨c, hc, hkey⟩ := List.mem_map.mp (hkeys.subset (List.mem_map_of_mem hb))
    obtain ⟨hid, htoken⟩ := Prod.mk.inj hkey
    rw [← hid, ← htoken]
    exact h.linked c hc

theorem Paired.forget (h : Paired crews l) (id : Nat) :
    Paired crews { l with table := (l.table.forget id).1 } :=
  h.fewer (List.filter_sublist.map Batch.key)

theorem Paired.decrement (h : Paired crews l) (id : Nat) :
    Paired crews
      { l with table := { l.table with batches := l.table.batches.map (Batch.oneLess id) } } := by
  have hkeys : (l.table.batches.map (Batch.oneLess id)).map Batch.key =
      l.table.batches.map Batch.key := by
    simp [Function.comp_def, Batch.oneLess_key]
  refine h.fewer ?_
  rw [hkeys]

/-- A new crew is recorded under numbers that are new on both sides. -/
theorem Paired.register (h : Paired crews l) (count : Nat) (lifetime : Option Duration) :
    Paired (crews + 1)
      { table := (l.table.register count crews lifetime false).1
        links := l.links ++ [⟨crews, l.table.counter + 1, true⟩] } := by
  have hnewcrew : crews ∉ l.links.map Link.crew := fun hmem =>
    Nat.lt_irrefl crews (h.crew_lt crews hmem)
  have hnewbatch : l.table.counter + 1 ∉ l.links.map Link.batch := fun hmem =>
    Nat.not_succ_le_self l.table.counter (h.batch_le _ hmem)
  have hnewid : l.table.counter + 1 ∉ l.table.batches.map Batch.id := by
    intro hmem
    obtain ⟨b, hb, hid⟩ := List.mem_map.mp hmem
    exact hnewbatch (List.mem_map.mpr ⟨_, h.linked b hb, hid⟩)
  constructor
  · intro crew hcrew
    rw [List.map_append] at hcrew
    rcases List.mem_append.mp hcrew with hcrew | hcrew
    · exact Nat.lt_succ_of_lt (h.crew_lt crew hcrew)
    · rw [List.mem_singleton.mp hcrew]
      exact Nat.lt_succ_self crews
  · intro batch hbatch
    rw [List.map_append] at hbatch
    rcases List.mem_append.mp hbatch with hbatch | hbatch
    · exact Nat.le_succ_of_le (h.batch_le batch hbatch)
    · rw [List.mem_singleton.mp hbatch]
      exact Nat.le_refl (l.table.counter + 1)
  · rw [List.map_append]
    exact h.crews_nodup.append (List.nodup_singleton _) (by simpa using hnewcrew)
  · rw [List.map_append]
    exact h.batches_nodup.append (List.nodup_singleton _) (by simpa using hnewbatch)
  · simp only [BatchTable.register, List.map_append]
    exact h.ids_nodup.append (List.nodup_singleton _) (by simpa using hnewid)
  · intro b hb
    rcases List.mem_append.mp hb with hb | hb
    · exact List.mem_append_left _ (h.linked b hb)
    · obtain rfl := List.mem_singleton.mp hb
      exact List.mem_append_right _ (List.mem_singleton.mpr rfl)

/-- The watcher of a link runs: its batch is forgotten, so nothing needs the watcher any more. -/
theorem Paired.unwatch (h : Paired crews l) (k : Link) :
    Paired crews
      { table := (l.table.forget k.batch).1
        links := l.links.map fun j => if j = k then { j with watched := false } else j } := by
  have hsame {β : Type} (f : Link → β) (hf : ∀ j : Link, f { j with watched := false } = f j) :
      (l.links.map fun j => if j = k then { j with watched := false } else j).map f =
        l.links.map f := by
    rw [List.map_map]
    refine List.map_congr_left fun j _ => ?_
    by_cases hj : j = k
    · simp [hj, hf]
    · simp [hj]
  have hcrews := hsame Link.crew fun _ => rfl
  have hbatches := hsame Link.batch fun _ => rfl
  constructor
  · rw [hcrews]
    exact h.crew_lt
  · rw [hbatches]
    exact h.batch_le
  · rw [hcrews]
    exact h.crews_nodup
  · rw [hbatches]
    exact h.batches_nodup
  · exact (h.forget k.batch).ids_nodup
  · intro b hb
    obtain ⟨hmem, hid⟩ := BatchTable.mem_forget.mp hb
    refine List.mem_map.mpr ⟨_, h.linked b hmem, if_neg ?_⟩
    rintro rfl
    exact hid rfl

end Paired

/-- What a record says of the workers that are there. `roll` has the crew of each, and `halted`
tells the crews whose tokens have fired. -/
structure Agrees (roll : List Nat) (halted : Nat → Prop) (l : Ledger Nat) : Prop where
  staffed : ∀ b ∈ l.table.batches, b.token ∈ roll
  counted : ∀ b ∈ l.table.batches, b.count = roll.count b.token
  recorded : ∀ crew ∈ roll, ¬ halted crew → ∃ b ∈ l.table.batches, b.token = crew

section Agrees

variable {crews : Nat} {roll : List Nat} {halted : Nat → Prop}

/-- More tokens have fired. -/
theorem Agrees.mono (h : Agrees roll halted l) {more : Nat → Prop}
    (hmore : ∀ crew, halted crew → more crew) : Agrees roll more l :=
  { h with recorded := fun crew hcrew hgoes =>
      h.recorded crew hcrew fun hhalted => hgoes (hmore crew hhalted) }

/-- A batch is forgotten when its token fires. -/
theorem Agrees.forget (h : Agrees roll halted l) (hpaired : Paired crews l) (id : Nat) :
    Agrees roll (fun crew => halted crew ∨ crew ∈ (l.table.forget id).2)
      { l with table := (l.table.forget id).1 } := by
  constructor
  · intro b hb
    exact h.staffed b (BatchTable.mem_forget.mp hb).1
  · intro b hb
    exact h.counted b (BatchTable.mem_forget.mp hb).1
  · intro crew hcrew hgoes
    obtain ⟨b, hb, rfl⟩ := h.recorded crew hcrew fun hhalted => hgoes (Or.inl hhalted)
    refine ⟨b, BatchTable.mem_forget.mpr ⟨hb, ?_⟩, rfl⟩
    rintro rfl
    refine hgoes (Or.inr ?_)
    simp only [BatchTable.forget, hpaired.batch?_eq hb]
    rfl

/-- A crew starts with so many workers, and is recorded. -/
theorem Agrees.register (h : Agrees roll halted l) (hroll : ∀ crew ∈ roll, crew < crews)
    {count : Nat} (hcount : 0 < count) (lifetime : Option Duration) (links : List Link) :
    Agrees (roll ++ List.replicate count crews) halted
      { table := (l.table.register count crews lifetime false).1, links } := by
  have hnone : crews ∉ roll := fun hmem => absurd (hroll crews hmem) (Nat.lt_irrefl crews)
  constructor
  · intro b hb
    rcases List.mem_append.mp hb with hb | hb
    · exact List.mem_append_left _ (h.staffed b hb)
    · obtain rfl := List.mem_singleton.mp hb
      exact List.mem_append_right _ (List.mem_replicate.mpr ⟨Nat.ne_of_gt hcount, rfl⟩)
  · intro b hb
    rcases List.mem_append.mp hb with hb | hb
    · have hother : crews ≠ b.token := fun heq => hnone (heq ▸ h.staffed b hb)
      rw [List.count_append, List.count_replicate, if_neg (by simpa using hother), h.counted b hb,
        Nat.add_zero]
    · obtain rfl := List.mem_singleton.mp hb
      simp [List.count_eq_zero.mpr hnone]
  · intro crew hcrew hgoes
    rcases List.mem_append.mp hcrew with hcrew | hcrew
    · obtain ⟨b, hb, rfl⟩ := h.recorded crew hcrew hgoes
      exact ⟨b, List.mem_append_left _ hb, rfl⟩
    · obtain rfl := List.eq_of_mem_replicate hcrew
      exact ⟨_, List.mem_append_right _ (List.mem_singleton.mpr rfl), rfl⟩

/-- A worker goes whose crew is on no record. -/
theorem Agrees.part (h : Agrees roll halted l) {crew : Nat} {rest : List Nat}
    (hroll : roll.Perm (crew :: rest)) (hnone : ∀ b ∈ l.table.batches, b.token ≠ crew) :
    Agrees rest halted l := by
  constructor
  · intro b hb
    have hmem := hroll.mem_iff.mp (h.staffed b hb)
    exact (List.mem_cons.mp hmem).resolve_left (hnone b hb)
  · intro b hb
    rw [h.counted b hb, hroll.count_eq, List.count_cons_of_ne (hnone b hb).symm]
  · intro other hother hgoes
    exact h.recorded other (hroll.mem_iff.mpr (List.mem_cons_of_mem crew hother)) hgoes

/-- A worker goes and leaves others of its crew behind. -/
theorem Agrees.decrement (h : Agrees roll halted l) (hpaired : Paired crews l) {b : Batch Nat}
    (hb : b ∈ l.table.batches) {rest : List Nat} (hroll : roll.Perm (b.token :: rest))
    (hothers : 1 < b.count) :
    Agrees rest halted
      { l with table := { l.table with batches := l.table.batches.map (Batch.oneLess b.id) } } := by
  have hleft : b.count = rest.count b.token + 1 := by
    rw [h.counted b hb, hroll.count_eq, List.count_cons_self]
  constructor
  · intro d hd
    obtain ⟨c, hc, rfl⟩ := List.mem_map.mp hd
    have htoken : (c.oneLess b.id).token = c.token := congrArg Prod.snd (Batch.oneLess_key b.id c)
    rw [htoken]
    by_cases hid : c.id = b.id
    · obtain rfl := hpaired.eq_of_id_eq hc hb hid
      exact List.count_pos_iff.mp (by omega)
    · have hstays := hroll.mem_iff.mp (h.staffed c hc)
      exact (List.mem_cons.mp hstays).resolve_left (hpaired.token_ne hc hb hid)
  · intro d hd
    obtain ⟨c, hc, rfl⟩ := List.mem_map.mp hd
    by_cases hid : c.id = b.id
    · obtain rfl := hpaired.eq_of_id_eq hc hb hid
      simpa [Batch.oneLess] using Nat.sub_eq_of_eq_add hleft
    · have hcounted := h.counted c hc
      rw [hroll.count_eq, List.count_cons_of_ne (hpaired.token_ne hc hb hid).symm] at hcounted
      simpa [Batch.oneLess, hid] using hcounted
  · intro crew hcrew hgoes
    obtain ⟨c, hc, rfl⟩ := h.recorded crew (hroll.mem_iff.mpr (List.mem_cons_of_mem _ hcrew)) hgoes
    exact ⟨_, List.mem_map_of_mem hc, congrArg Prod.snd (Batch.oneLess_key b.id c)⟩

/-- A worker of a recorded batch ends. With the last one the batch is forgotten. -/
theorem Agrees.exited (h : Agrees roll halted l) (hpaired : Paired crews l) {b : Batch Nat}
    (hb : b ∈ l.table.batches) {rest : List Nat} (hroll : roll.Perm (b.token :: rest)) :
    Paired crews { l with table := (l.table.exited b.id).1 } ∧
      Agrees rest (fun crew => halted crew ∨ crew ∈ (l.table.exited b.id).2)
        { l with table := (l.table.exited b.id).1 } := by
  simp only [BatchTable.exited, hpaired.batch?_eq hb]
  split
  · refine ⟨hpaired.forget b.id, (h.forget hpaired b.id).part hroll ?_⟩
    intro c hc
    obtain ⟨hc, hid⟩ := BatchTable.mem_forget.mp hc
    exact hpaired.token_ne hc hb hid
  · rename_i hothers
    refine ⟨hpaired.decrement b.id, ?_⟩
    exact (h.decrement hpaired hb hroll (Nat.lt_of_not_le hothers)).mono fun _ => Or.inl

/-- A worker ends, and its batch, if it is still recorded, is told. -/
theorem Agrees.note_exited (h : Agrees roll halted l) (α : Type) (hpaired : Paired crews l)
    (worker : Nat) {crew : Nat} {rest : List Nat} (hroll : roll.Perm (crew :: rest)) :
    Paired crews (l.note id (.exited worker crew : Pool.Event α)).1 ∧
      Agrees rest (fun c => halted c ∨ c ∈ (l.note id (.exited worker crew : Pool.Event α)).2)
        (l.note id (.exited worker crew : Pool.Event α)).1 := by
  by_cases hb : ∃ b ∈ l.table.batches, b.token = crew
  · obtain ⟨b, hb, rfl⟩ := hb
    have hlink : l.link? b.token = some ⟨b.token, b.id, true⟩ := hpaired.link?_eq hb
    obtain ⟨hpaired', hagrees'⟩ := h.exited hpaired hb hroll
    simp only [note, hlink]
    refine ⟨hpaired', ?_⟩
    simpa using hagrees'
  · have hnone : ∀ b ∈ l.table.batches, b.token ≠ crew := fun b hb' htoken => hb ⟨b, hb', htoken⟩
    have hsame : l.note id (.exited worker crew : Pool.Event α) = (l, []) := by
      unfold note
      dsimp only
      split
      · rename_i k hk
        obtain ⟨hmem, rfl⟩ : k ∈ l.links ∧ k.crew = crew := mem_of_find?_key hk
        have hforgotten : l.table.batch? k.batch = none := by
          rw [Option.eq_none_iff_forall_ne_some]
          intro b hfound
          obtain ⟨hb, hid⟩ := BatchTable.batch?_some hfound
          exact hnone b hb ((hpaired.id_eq_iff hmem hb).mp hid)
        simp [BatchTable.exited, hforgotten]
      · rfl
    rw [hsame]
    exact ⟨hpaired, (h.part hroll hnone).mono fun _ => Or.inl⟩

/-- The token that the end of a worker fires is that of its crew, which has lost its last worker. -/
theorem Agrees.fired_of_exited (h : Agrees roll halted l) (α : Type) (hpaired : Paired crews l)
    (worker : Nat) {crew : Nat} {rest : List Nat} (hroll : roll.Perm (crew :: rest)) {fired : Nat}
    (hfired : fired ∈ (l.note id (.exited worker crew : Pool.Event α)).2) :
    fired = crew ∧ fired ∉ rest := by
  unfold note at hfired
  dsimp only at hfired
  split at hfired
  · rename_i k hk
    obtain ⟨hmem, rfl⟩ : k ∈ l.links ∧ k.crew = crew := mem_of_find?_key hk
    unfold BatchTable.exited at hfired
    split at hfired
    · cases hfired
    · rename_i b hfound
      obtain ⟨hb, hid⟩ := BatchTable.batch?_some hfound
      split at hfired
      · rename_i hlast
        obtain rfl := hpaired.fired_of_forget hmem (Option.mem_toList.mp hfired)
        have hcounted := h.counted b hb
        rw [(hpaired.id_eq_iff hmem hb).mp hid, hroll.count_eq, List.count_cons_self] at hcounted
        exact ⟨rfl, List.count_eq_zero.mp (by omega)⟩
      · cases hfired
  · cases hfired

end Agrees

end Ledger

end Coordination.Manager
