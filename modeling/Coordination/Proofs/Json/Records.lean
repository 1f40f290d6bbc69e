import Mathlib.Data.List.Basic
import Coordination.Json.Decode
import Coordination.Proofs.Keyed

/-!
Records from documents. A record that is read has for each field what is written for it: the last
member of its name, or the item in its place. Members of other names can be taken out of a document
without changing a record that is read from it.
-/

namespace Coordination.Json.Document

section Members

theorem mapM_eq_map {α β : Type} {f : α → Option β} {g : α → β}
    (hfg : ∀ a b, f a = some b → b = g a)
    {l : List α} {r : List β} (h : l.mapM f = some r) : r = l.map g := by
  induction l generalizing r with
  | nil => simpa using h.symm
  | cons a l ih =>
      rw [List.mapM_cons] at h
      obtain ⟨b, hb, h⟩ := Option.bind_eq_some_iff.mp h
      obtain ⟨s, hs, h⟩ := Option.bind_eq_some_iff.mp h
      obtain rfl : b :: s = r := Option.some.inj h
      rw [List.map_cons, ← hfg a b hb, ← ih hs]

theorem mapM_map_eq_some {α β : Type} {f : α → Option β} {g : α → α} {h : β → β}
    (hfg : ∀ a b, f a = some b → f (g a) = some (h b)) {l : List α} {r : List β}
    (hl : l.mapM f = some r) : (l.map g).mapM f = some (r.map h) := by
  induction l generalizing r with
  | nil =>
      obtain rfl : r = [] := by simpa using hl.symm
      rfl
  | cons a l ih =>
      rw [List.mapM_cons] at hl
      obtain ⟨b, hb, hl⟩ := Option.bind_eq_some_iff.mp hl
      obtain ⟨s, hs, hl⟩ := Option.bind_eq_some_iff.mp hl
      obtain rfl : b :: s = r := Option.some.inj hl
      rw [List.map_cons, List.mapM_cons, hfg a b hb, ih hs]
      rfl

theorem mapM_congr {α β : Type} {f g : α → Option β} {l : List α} (h : ∀ a ∈ l, f a = g a) :
    l.mapM f = l.mapM g := by
  induction l with
  | nil => rfl
  | cons a l ih =>
      have hrest := ih fun b hb => h b (List.mem_cons_of_mem _ hb)
      rw [List.mapM_cons, List.mapM_cons, h a List.mem_cons_self, hrest]

/-- The members of an object whose keys all have a text. -/
theorem members?_obj (members : List (String × Document)) :
    (obj (members.map fun m => (some m.1, m.2))).members? = some members := by
  rw [members?]
  induction members with
  | nil => rfl
  | cons m members ih =>
      rw [List.map_cons, List.mapM_cons, ih]
      rfl

theorem members?_eq_some {doc : Document} {members : List (String × Document)} :
    doc.members? = some members ↔ doc = obj (members.map fun m => (some m.1, m.2)) := by
  refine ⟨fun h => ?_, fun h => h ▸ members?_obj members⟩
  cases doc with
  | obj written =>
      rw [members?] at h
      congr 1
      induction written generalizing members with
      | nil =>
          obtain rfl : members = [] := by simpa using h.symm
          rfl
      | cons m written ih =>
          rw [List.mapM_cons] at h
          obtain ⟨b, hb, h⟩ := Option.bind_eq_some_iff.mp h
          obtain ⟨s, hs, h⟩ := Option.bind_eq_some_iff.mp h
          obtain rfl : b :: s = members := Option.some.inj h
          obtain ⟨k, hk, rfl⟩ := Option.map_eq_some_iff.mp hb
          rw [List.map_cons, ← ih hs, ← hk]
  | null => cases h
  | bool b => cases h
  | num n => cases h
  | str s => cases h
  | arr items => cases h

theorem ofMembers_eq_map (members : List (String × Json)) :
    ofMembers members = members.map fun m => (some m.1, ofJson m.2) := by
  induction members with
  | nil => rw [ofMembers, List.map_nil]
  | cons m members ih => rw [ofMembers, ih, List.map_cons]

theorem members?_ofJson (members : List (String × Json)) :
    (ofJson (.obj members)).members? = some (members.map fun m => (m.1, ofJson m.2)) := by
  rw [members?_eq_some, ofJson, ofMembers_eq_map, List.map_map]
  rfl

theorem last?_eq_getLast? (name : String) (members : List (String × Document)) :
    last? name members = ((members.filter fun m => m.1 = name).getLast?).map Prod.snd := by
  rw [last?, ← List.head?_filter, List.filter_reverse, List.head?_reverse]

theorem last?_append (name : String) (members more : List (String × Document)) :
    last? name (members ++ more) = (last? name more).or (last? name members) := by
  rw [last?, last?, last?, List.reverse_append, List.find?_append]
  cases more.reverse.find? fun m => m.1 = name <;> rfl

/-- The one member of a name is the last one. -/
theorem eq_last?_of_once? {name : String} {members : List (String × Document)} {d : Option Document}
    (h : once? name members = some d) : d = last? name members := by
  rw [last?_eq_getLast?]
  rw [once?] at h
  split at h
  · rename_i hnone
    rw [hnone, ← Option.some.inj h]
    rfl
  · rename_i m hone
    rw [hone, ← Option.some.inj h]
    rfl
  · cases h

/-- Where keys are told apart, the last member of a name is the one that is found, and the only
one. -/
theorem last?_eq_lookup {members : List (String × Document)} (h : (members.map Prod.fst).Nodup)
    (name : String) : last? name members = members.lookup name := by
  rw [last?_eq_getLast?, filter_key h]
  cases members.lookup name <;> rfl

theorem once?_eq_lookup {members : List (String × Document)} (h : (members.map Prod.fst).Nodup)
    (name : String) : once? name members = some (members.lookup name) := by
  rw [once?, filter_key h]
  cases members.lookup name <;> rfl

theorem once?_map (f : String → Document → Document) (name : String)
    (members : List (String × Document)) :
    once? name (members.map fun m => (m.1, f m.1 m.2)) =
      (once? name members).map (Option.map (f name)) := by
  have hfilter : (members.map fun m => (m.1, f m.1 m.2)).filter (fun m => m.1 = name) =
      (members.filter fun m => m.1 = name).map fun m => (m.1, f m.1 m.2) := by
    rw [List.filter_map]
    rfl
  have hname : ∀ m ∈ members.filter (fun m => m.1 = name), m.1 = name := by
    intro m hm
    simpa using (List.mem_filter.mp hm).2
  rw [once?, once?, hfilter]
  rcases hmembers : members.filter fun m => m.1 = name with _ | ⟨m, _ | ⟨m', rest⟩⟩
  · rw [hmembers]
    rfl
  · have hm : m.1 = name := hname m (hmembers ▸ List.mem_cons_self)
    rw [hmembers, ← hm]
    rfl
  · rw [hmembers]
    rfl

end Members

section Fields

/-- What is written for a field of a record: the last member of its name, or the item in its
place. -/
def written (names : List String) (doc : Document) (name : String) : Option Document :=
  match doc with
  | .arr items => items[names.idxOf name]?
  | .obj members => ((obj members).members?).bind (last? name)
  | _ => none

theorem fields?_eq_some {form : ArrayForm} {names : List String} {doc : Document}
    {fields : List (Option Document)} (hnodup : names.Nodup)
    (h : doc.fields? form names = some fields) : fields = names.map (written names doc) := by
  cases doc with
  | arr items =>
      simp only [fields?] at h
      split_ifs at h with hlong
      obtain rfl := Option.some.inj h
      refine List.ext_getElem (by simp; omega) fun i hi hi' => ?_
      have hname : i < names.length := by simpa using hi'
      rw [List.getElem_map, written, hnodup.idxOf_getElem i hname, List.getElem_append]
      split
      · rename_i hlt
        rw [List.length_map] at hlt
        rw [List.getElem_map, List.getElem?_eq_getElem hlt]
      · rename_i hge
        rw [List.length_map] at hge
        rw [List.getElem_replicate, List.getElem?_eq_none (by omega)]
  | obj members =>
      simp only [fields?] at h
      obtain ⟨ms, hms, h⟩ := Option.bind_eq_some_iff.mp h
      have hfields := mapM_eq_map (fun name d => eq_last?_of_once?) h
      rw [hfields]
      refine List.map_congr_left fun name _ => ?_
      rw [written, hms, Option.bind_some]
  | null => cases h
  | bool b => cases h
  | num n => cases h
  | str s => cases h

theorem optional_map {α : Type} {f : Document → Option α} {g : Document → Document} {h : α → α}
    (hfg : ∀ d a, f d = some a → f (g d) = some (h a)) {d : Option Document} {a : Option α}
    (hd : optional f d = some a) : optional f (d.map g) = some (a.map h) := by
  cases d with
  | none =>
      obtain rfl : none = a := Option.some.inj hd
      rfl
  | some d =>
      obtain ⟨a, ha, rfl⟩ := Option.map_eq_some_iff.mp hd
      rw [Option.map_some, optional, hfg d a ha]
      rfl

end Fields

section Order

variable {order members : List (String × Json)}

theorem nodup_order (h : order.Perm members) (hnodup : (members.map Prod.fst).Nodup) :
    ((order.map fun m => (m.1, ofJson m.2)).map Prod.fst).Nodup := by
  rw [List.map_map]
  exact (h.map Prod.fst).nodup_iff.mpr hnodup

/-- The order of the members of an object does not matter to what is found in it. -/
theorem lookup_order (h : order.Perm members) (hnodup : (members.map Prod.fst).Nodup)
    (name : String) :
    (order.map fun m => (m.1, ofJson m.2)).lookup name = (members.lookup name).map ofJson := by
  rw [lookup_map, lookup_eq_of_perm h hnodup]

theorem fields?_order (h : order.Perm members) (hnodup : (members.map Prod.fst).Nodup)
    {form : ArrayForm} {names : List String} :
    (ofJson (.obj order)).fields? form names =
      some (names.map fun name => (order.map fun m => (m.1, ofJson m.2)).lookup name) := by
  rw [members?_eq_some.mp (members?_ofJson order)]
  simp only [fields?, members?_obj, Option.bind_some]
  rw [mapM_congr fun name _ => once?_eq_lookup (nodup_order h hnodup) name]
  exact List.mapM_pure

end Order

section Keep

/-- A document without the members of other names. -/
def keep (names : List String) : Document → Document
  | .obj members => .obj (members.filter fun m => m.1.any (· ∈ names))
  | doc => doc

def mapMembers (f : Document → Document) : Document → Document
  | .obj members => .obj (members.map fun m => (m.1, f m.2))
  | doc => doc

theorem keep_obj (names : List String) (members : List (String × Document)) :
    keep names (obj (members.map fun m => (some m.1, m.2))) =
      obj ((members.filter fun m => m.1 ∈ names).map fun m => (some m.1, m.2)) := by
  rw [keep, List.filter_map]
  rfl

theorem filter_name {names : List String} {name : String} (hname : name ∈ names)
    (members : List (String × Document)) :
    (members.filter fun m => m.1 ∈ names).filter (fun m => m.1 = name) =
      members.filter fun m => m.1 = name := by
  rw [List.filter_filter]
  refine List.filter_congr fun m _ => ?_
  by_cases hm : m.1 = name
  · simp [hm, hname]
  · simp [hm]

theorem once?_filter {names : List String} {name : String} (hname : name ∈ names)
    (members : List (String × Document)) :
    once? name (members.filter fun m => m.1 ∈ names) = once? name members := by
  rw [once?, once?, filter_name hname]

theorem last?_filter {names : List String} {name : String} (hname : name ∈ names)
    (members : List (String × Document)) :
    last? name (members.filter fun m => m.1 ∈ names) = last? name members := by
  rw [last?_eq_getLast?, last?_eq_getLast?, filter_name hname]

/-- Members of other names do not matter to a record. -/
theorem fields?_keep {form : ArrayForm} {names : List String} {doc : Document}
    {fields : List (Option Document)} (h : doc.fields? form names = some fields) :
    (doc.keep names).fields? form names = some fields := by
  cases doc with
  | obj members =>
      simp only [fields?] at h
      obtain ⟨ms, hms, h⟩ := Option.bind_eq_some_iff.mp h
      rw [members?_eq_some.mp hms, keep_obj]
      simp only [fields?, members?_obj, Option.bind_some]
      rw [← h]
      exact mapM_congr fun name hname => once?_filter hname ms
  | arr items => exact h
  | null => cases h
  | bool b => cases h
  | num n => cases h
  | str s => cases h

theorem soundMembers_filter {levels : Nat} {members : List (Option String × Document)}
    (p : Option String × Document → Bool) (h : soundMembers levels members) :
    soundMembers levels (members.filter p) := by
  induction members with
  | nil => exact h
  | cons m members ih =>
      simp only [soundMembers, Bool.and_eq_true] at h
      rw [List.filter_cons]
      split
      · simp only [soundMembers, Bool.and_eq_true]
        exact ⟨h.1, ih h.2⟩
      · exact ih h.2

theorem sound_keep {levels : Nat} {names : List String} {doc : Document} (h : doc.sound levels) :
    (doc.keep names).sound levels := by
  cases doc with
  | obj members =>
      cases levels with
      | zero => exact h
      | succ levels => exact soundMembers_filter _ h
  | null => exact h
  | bool b => exact h
  | num n => exact h
  | str s => exact h
  | arr items => exact h

end Keep

theorem soundMembers_ofMembers {levels : Nat} {members : List (String × Json)}
    (h : ∀ m ∈ members, (ofJson m.2).sound levels) : soundMembers levels (ofMembers members) := by
  induction members with
  | nil => rw [ofMembers, soundMembers]
  | cons m members ih =>
      have hrest := ih fun x hx => h x (List.mem_cons_of_mem _ hx)
      rw [ofMembers, soundMembers, h m List.mem_cons_self, hrest]
      rfl

end Coordination.Json.Document
