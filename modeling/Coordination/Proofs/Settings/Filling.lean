import Coordination.Proofs.Keyed
import Coordination.Proofs.Settings.Loading
import Coordination.Proofs.Settings.Written

/-!
Registries that are read from documents. Each entry is filled in over the defaults under its own
key, whatever other entries are there already; so the outcome says for each key what its entry
gives, and the order in which the entries are filled in does not matter.
-/

namespace Coordination

namespace Settings.Registry

abbrev Entries := List (String × List (String × Json.Document))

/-- What a document says: the defaults, and the entries with each key once. -/
def parts? (doc : Json.Document) : Option (Settings × Entries) := do
  match ← doc.fields? .open fieldNames with
  | [defaults, queues] =>
    let defaults ← Json.Document.optional Settings.ofDocument? defaults
    let entries ← Json.Document.optional entries? queues
    pure (defaults.getD builtIn, (lastEntries (entries.getD [])).toList)
  | _ => none

theorem ofDocument?_eq (doc : Json.Document) :
    ofDocument? doc = (parts? doc).bind fun p => p.2.foldlM fill { defaults := p.1 } := by
  simp only [ofDocument?, parts?, bind, Option.bind_assoc]
  congr 1
  funext fields
  rcases fields with _ | ⟨defaults, _ | ⟨queues, _ | ⟨more, rest⟩⟩⟩
  · rfl
  · rfl
  · simp only [Option.bind_assoc, pure, Option.bind_some]
  · rfl

section Entries

variable {α : Type}

/-- Of the entries of a key the last one stays. -/
theorem getElem?_lastEntries (l : List (String × α)) (q : String) :
    (lastEntries l)[q]? = (l.reverse.find? fun e => e.1 = q).map Prod.snd := by
  have hfold (m : Std.ExtTreeMap String α) :
      (l.foldl (fun m e => m.insert e.1 e.2) m)[q]? =
        ((l.reverse.find? fun e => e.1 = q).map Prod.snd).or m[q]? := by
    induction l generalizing m with
    | nil => rfl
    | cons e l ih =>
        rw [List.foldl_cons, ih, List.reverse_cons, List.find?_append,
          Std.ExtTreeMap.getElem?_insert]
        cases hl : l.reverse.find? fun e => e.1 = q with
        | some e' => rfl
        | none =>
            by_cases he : e.1 = q
            · simp [he]
            · simp [he, Std.LawfulEqCmp.compare_eq_iff_eq]
  rw [lastEntries, hfold]
  simp

theorem getElem?_lastEntries_map {β : Type} (f : α → β) (l : List (String × α)) (q : String) :
    (lastEntries (l.map fun e => (e.1, f e.2)))[q]? = ((lastEntries l)[q]?).map f := by
  rw [getElem?_lastEntries, getElem?_lastEntries, ← List.map_reverse, List.find?_map,
    Option.map_map, Option.map_map]
  rfl

theorem mem_keys_toList {m : Std.ExtTreeMap String α} {q : String} :
    q ∈ m.toList.map Prod.fst ↔ ∃ a, m[q]? = some a := by
  simp only [List.mem_map, Prod.exists, exists_and_right, exists_eq_right,
    Std.ExtTreeMap.mem_toList_iff_getElem?_eq_some]

theorem nodup_keys_toList (m : Std.ExtTreeMap String α) : (m.toList.map Prod.fst).Nodup := by
  have hdistinct := m.distinct_keys_toList
  rw [List.nodup_iff_pairwise_ne, List.pairwise_map]
  exact hdistinct.imp fun h heq => h (Std.LawfulEqCmp.compare_eq_iff_eq.mpr heq)

/-- Entries with different keys all stay. -/
theorem mem_toList_lastEntries {l : List (String × α)} (h : (l.map Prod.fst).Nodup)
    {e : String × α} : e ∈ (lastEntries l).toList ↔ e ∈ l := by
  rw [Std.ExtTreeMap.mem_toList_iff_getElem?_eq_some, getElem?_lastEntries]
  have hreverse : (l.reverse.map Prod.fst).Nodup := by
    rw [List.map_reverse]
    exact List.nodup_reverse.mpr h
  constructor
  · intro hfind
    obtain ⟨e', he', hsnd⟩ := Option.map_eq_some_iff.mp hfind
    obtain ⟨hmem, hfst⟩ := mem_of_find?_key he'
    obtain rfl : e' = e := Prod.ext hfst hsnd
    exact List.mem_reverse.mp hmem
  · intro hmem
    rw [find?_key hreverse (List.mem_reverse.mpr hmem)]
    rfl

end Entries

section Fill

/-- What the entry of a key with this overlay gives. -/
def entry (defaults : Settings) (key : String) (o : Overlay) : Settings :=
  { defaults.layer o with name := nameFor key (o.name.getD key) }

/-- The registry has these defaults and entries. -/
structure FilledFrom (defaults : Settings) (entries : Entries) (r : Registry) : Prop where
  defaults_eq : r.defaults = defaults
  listed : ∀ e ∈ entries, ∃ o, Overlay.ofMembers? e.2 = some o ∧
    r.queues[e.1]? = some (entry defaults e.1 o)
  others : ∀ q ∉ entries.map Prod.fst, r.queues[q]? = none

/-- Filling in an entry for a key that has none puts it over the defaults. -/
theorem fill_new {r : Registry} (hr : r.defaults.Whole)
    {e : String × List (String × Json.Document)} (hnew : r.queues[e.1]? = none) :
    fill r e = (Overlay.ofMembers? e.2).map fun o =>
      { r with queues := r.queues.insert e.1 (entry r.defaults e.1 o) } := by
  have hqueue : r.forQueue e.1 = { r.defaults with name := e.1 } := by
    rw [forQueue_eq, hnew]
    rfl
  have hwhole : (r.forQueue e.1).Whole := by
    rw [hqueue]
    exact ⟨hr.block, hr.boost⟩
  rw [fill, ofMembers?_written hwhole, hqueue]
  cases Overlay.ofMembers? e.2 <;> rfl

theorem ext_lookup {r r' : Registry} (hdefaults : r.defaults = r'.defaults)
    (hqueues : ∀ q : String, r.queues[q]? = r'.queues[q]?) : r = r' := by
  obtain ⟨defaults, queues⟩ := r
  obtain ⟨defaults', queues'⟩ := r'
  congr 1
  exact Std.ExtTreeMap.ext_getElem? fun q => hqueues q

/-- Filling in entries with different keys, none of which is there yet. -/
theorem foldlM_fill_new {entries : Entries} {r r' : Registry}
    (hr : r.defaults.Whole) (hnodup : (entries.map Prod.fst).Nodup)
    (hnew : ∀ q ∈ entries.map Prod.fst, r.queues[q]? = none) :
    entries.foldlM fill r = some r' ↔
      r'.defaults = r.defaults ∧
      (∀ e ∈ entries, ∃ o, Overlay.ofMembers? e.2 = some o ∧
        r'.queues[e.1]? = some (entry r.defaults e.1 o)) ∧
      ∀ q ∉ entries.map Prod.fst, r'.queues[q]? = r.queues[q]? := by
  induction entries generalizing r with
  | nil =>
      refine ⟨fun h => ?_, fun ⟨hdefaults, _, hothers⟩ => ?_⟩
      · obtain rfl : r = r' := Option.some.inj h
        exact ⟨rfl, by simp, fun _ _ => rfl⟩
      · exact congrArg some (ext_lookup hdefaults.symm fun q => (hothers q (by simp)).symm)
  | cons e entries ih =>
      obtain ⟨hfresh, hnodup⟩ := List.nodup_cons.mp hnodup
      rw [List.foldlM_cons, fill_new hr (hnew e.1 (by simp))]
      cases ho : Overlay.ofMembers? e.2 with
      | none =>
          refine iff_of_false (by simp) fun ⟨_, hlisted, _⟩ => ?_
          obtain ⟨o, ho', -⟩ := hlisted e List.mem_cons_self
          rw [ho] at ho'
          cases ho'
      | some o =>
          let filled : Registry := { r with queues := r.queues.insert e.1 (entry r.defaults e.1 o) }
          have hfilled (q : String) : filled.queues[q]? =
              if e.1 = q then some (entry r.defaults e.1 o) else r.queues[q]? :=
            getElem?_insert_key _ _ _ _
          have hrest (q : String) (hq : q ∈ entries.map Prod.fst) : filled.queues[q]? = none := by
            have hne : e.1 ≠ q := by
              rintro rfl
              exact hfresh hq
            rw [hfilled, if_neg hne]
            exact hnew q (List.mem_cons_of_mem _ hq)
          -- No later entry has this key, so what is there for it now is there in the end.
          have hstep := ih (r := filled) hr hnodup hrest
          refine hstep.trans (and_congr_right fun _ => ?_)
          constructor
          · rintro ⟨hlisted, hothers⟩
            refine ⟨fun e' he' => ?_, fun q hq => ?_⟩
            · rcases List.mem_cons.mp he' with rfl | he'
              · exact ⟨o, ho, by rw [hothers _ hfresh, hfilled, if_pos rfl]⟩
              · exact hlisted e' he'
            · obtain ⟨hne, hq⟩ := List.ne_and_not_mem_of_not_mem_cons hq
              rw [hothers q hq, hfilled, if_neg hne.symm]
          · rintro ⟨hlisted, hothers⟩
            refine ⟨fun e' he' => hlisted e' (List.mem_cons_of_mem _ he'), fun q hq => ?_⟩
            rw [hfilled]
            split
            · rename_i heq
              obtain ⟨o', ho', hentry⟩ := hlisted e List.mem_cons_self
              rw [← heq, hentry, Option.some.inj (ho.symm.trans ho')]
            · rename_i hne
              exact hothers q (List.not_mem_cons_of_ne_of_not_mem (Ne.symm hne) hq)

/-- The registry that entries with different keys give. -/
theorem foldlM_fill_iff {entries : Entries} {defaults : Settings} {r : Registry}
    (hdefaults : defaults.Whole) (hnodup : (entries.map Prod.fst).Nodup) :
    entries.foldlM fill { defaults } = some r ↔ FilledFrom defaults entries r := by
  rw [foldlM_fill_new hdefaults hnodup fun q _ => by simp]
  simp only [Std.ExtTreeMap.getElem?_empty]
  exact ⟨fun ⟨hd, hlisted, hothers⟩ => ⟨hd, hlisted, hothers⟩,
    fun h => ⟨h.defaults_eq, h.listed, h.others⟩⟩

end Fill

end Settings.Registry

end Coordination
